import CantonSdk.Query.Pqs.PostgresLexer

/-!
# What the guard of raw queries lets through

An accepted statement is one statement that changes nothing, as PostgreSQL reads it, exactly when the replacements
leave standing every separator and every word for a change that PostgreSQL reads as code, and join no word to
another.
-/

set_option linter.all false

namespace CantonSdk.Query.Pqs

open CantonSdk.Base CantonSdk.Query.Canonical

/-! ## Positions -/

/-- A character, and its position where it is one of the original text. -/
abbrev Spot := Char × Option Nat

def spots (sql : String) : List Spot := sql.toList.zipIdx.map fun entry => (entry.1, some entry.2)

/-- What the replacements leave over, with its positions. -/
def strippedSpots (sql : String) : List Spot :=
  stripLiteralsAndComments Prod.fst [('\'', none), ('\'', none)] [('"', none), ('"', none)] (spots sql)

/-- The tokens that PostgreSQL reads, with their positions. -/
def codeTokens (sql : String) : List (PgToken Spot) := pgTokens Prod.fst 0 (spots sql)

/-! ## What is read, and what is hidden -/

def isSemicolon : PgToken Spot → Bool
  | .symbol spot => spot.1 = ';'
  | _ => false

/-- A semicolon with a statement behind it. -/
def Separates (tokens : List (PgToken Spot)) (spot : Spot) : Prop :=
  ∃ front back, tokens = front ++ .symbol spot :: back ∧ spot.1 = ';' ∧ ∃ token ∈ back, isSemicolon token = false

/-- A word that PostgreSQL reads as a keyword of a statement that changes something. -/
def IsMutation (word : List Spot) : Prop := String.ofList (word.map fun spot => spot.1.toLower) ∈ mutationTokens

/-- One statement without a keyword that changes something. -/
structure ReadOnly (tokens : List (PgToken Spot)) : Prop where
  oneStatement : ∀ spot, ¬ Separates tokens spot
  noMutation : ∀ word, PgToken.word word ∈ tokens → ¬ IsMutation word

/-- Part of the text as the guard reads it. -/
def guardText (stripped : List Spot) : List Char := (stripped.map Prod.fst).flatMap lowerChar

/-- A word stands in what is left over, with nothing joined to it. -/
def StandsAlone (stripped word : List Spot) : Prop :=
  ∃ front back, stripped = front ++ (word ++ back) ∧ (∀ c ∈ (guardText front).getLast?, isWordChar c = false) ∧
    ∀ c ∈ (guardText back).head?, isWordChar c = false

/-- The replacements leave standing what the guard looks for. -/
structure NothingHidden (sql : String) : Prop where
  separators : ∀ spot, Separates (codeTokens sql) spot → spot ∈ strippedSpots sql
  mutations : ∀ word, PgToken.word word ∈ codeTokens sql → IsMutation word → StandsAlone (strippedSpots sql) word

/-! ## The replacements on positions -/

section Positions

variable {α : Type} {char : α → Char}

theorem replaceAll_map {matchAt : List α → Option Nat} {matchText : List Char → Option Nat}
    (hmatch : ∀ list, matchAt list = matchText (list.map char)) (replacement : List α) (skip : Nat) (list : List α) :
    (replaceAll matchAt replacement skip list).map char = replaceAll matchText (replacement.map char) skip (list.map char) := by
  induction list generalizing skip with
  | nil => cases skip <;> rfl
  | cons a rest ih =>
      cases skip with
      | succ skip => exact ih skip
      | zero =>
          rw [List.map_cons, replaceAll, replaceAll, ← List.map_cons, ← hmatch]
          split
          · rw [List.map_append, ih]
          · rw [List.map_cons, ih]

theorem lineComment_map (list : List α) : lineComment char list = lineComment id (list.map char) := by
  match list with
  | [] => rfl
  | [_] => rfl
  | a :: b :: rest =>
      rw [List.map_cons, List.map_cons, lineComment, lineComment, List.takeWhile_map, List.length_map]
      rfl

theorem blockEnd_map (list : List α) : blockEnd char list = blockEnd id (list.map char) := by
  induction list with
  | nil => rfl
  | cons a rest ih =>
      cases rest with
      | nil => rfl
      | cons b rest =>
          rw [List.map_cons, List.map_cons, blockEnd, blockEnd, ih]
          rfl

theorem blockComment_map (list : List α) : blockComment char list = blockComment id (list.map char) := by
  match list with
  | [] => rfl
  | [_] => rfl
  | a :: b :: rest =>
      rw [List.map_cons, List.map_cons, blockComment, blockComment, blockEnd_map]
      rfl

theorem quotedEnd_map (quote : Char) (list : List α) :
    quotedEnd char quote list = quotedEnd id quote (list.map char) := by
  induction list using quotedEnd.induct char quote with
  | case1 => rfl
  | case2 a hquote => rfl
  | case3 a hquote => rfl
  | case4 a b rest hquote hdoubled ih =>
      rw [List.map_cons, List.map_cons, quotedEnd, quotedEnd, if_pos hquote, if_pos hdoubled, ih]
      rw [if_pos (show id (char a) = quote from hquote), if_pos (show id (char b) = quote from hdoubled)]
  | case5 a b rest hquote hsingle =>
      rw [List.map_cons, List.map_cons, quotedEnd, quotedEnd, if_pos hquote, if_neg hsingle]
      rw [if_pos (show id (char a) = quote from hquote), if_neg (show ¬ id (char b) = quote from hsingle)]
  | case6 a b rest hquote ih =>
      rw [List.map_cons, List.map_cons, quotedEnd, quotedEnd, if_neg hquote, ih, List.map_cons]
      rw [if_neg (show ¬ id (char a) = quote from hquote)]

theorem quoted_map (quote : Char) (list : List α) : quoted char quote list = quoted id quote (list.map char) := by
  cases list with
  | nil => rfl
  | cons a rest =>
      rw [List.map_cons, quoted, quoted, quotedEnd_map]
      rfl

end Positions

/-- The positions are those of the text that the guard reads. -/
theorem strippedSpots_text (sql : String) :
    (strippedSpots sql).map Prod.fst = stripLiteralsAndComments id ['\'', '\''] ['"', '"'] sql.toList := by
  have hspots : (spots sql).map Prod.fst = sql.toList := by
    rw [spots, List.map_map]
    exact List.zipIdx_map_fst 0 sql.toList
  rw [strippedSpots, stripLiteralsAndComments, stripLiteralsAndComments,
    replaceAll_map (quoted_map _), replaceAll_map (quoted_map _), replaceAll_map blockComment_map,
    replaceAll_map lineComment_map, hspots]
  rfl

/-! ## The tokens of the guard -/

theorem tokensFrom_nonword {c : Char} (hc : isWordChar c = false) (word rest : List Char) :
    tokensFrom word (c :: rest) = readToken word ++ (if c = ';' then [[';']] else []) ++ tokensFrom [] rest := by
  rw [tokensFrom, hc]
  rfl

theorem tokensFrom_word {word : List Char} (hword : ∀ c ∈ word, isWordChar c = true) (read rest : List Char) :
    tokensFrom read (word ++ rest) = tokensFrom (read ++ word) rest := by
  induction word generalizing read with
  | nil => rw [List.append_nil, List.nil_append]
  | cons c word ih =>
      rw [List.cons_append, tokensFrom, if_pos (hword c (List.mem_cons_self ..)),
        ih fun d hd => hword d (List.mem_cons_of_mem _ hd), List.append_assoc, List.singleton_append]

/-- The tokens behind a text that ends outside a word. -/
theorem tokensFrom_front {front : List Char} (hlast : ∀ c ∈ front.getLast?, isWordChar c = false) (rest : List Char) :
    ∃ before, tokensFrom [] (front ++ rest) = before ++ tokensFrom [] rest := by
  suffices ∀ word, front ≠ [] → ∃ before, tokensFrom word (front ++ rest) = before ++ tokensFrom [] rest by
    cases front with
    | nil => exact ⟨[], rfl⟩
    | cons c front => exact this [] (List.cons_ne_nil _ _)
  induction front with
  | nil => exact fun _ hne => absurd rfl hne
  | cons c front ih =>
      intro word _
      cases front with
      | nil => exact ⟨_, tokensFrom_nonword (hlast c rfl) word rest⟩
      | cons d front =>
          have hrest := ih hlast
          rw [List.cons_append, tokensFrom]
          split
          · exact hrest _ (List.cons_ne_nil _ _)
          · obtain ⟨before, hbefore⟩ := hrest [] (List.cons_ne_nil _ _)
            exact ⟨_, by rw [hbefore, ← List.append_assoc]⟩

/-- A word that nothing is joined to is a token. -/
theorem mem_tokensFrom {word : List Char} (hne : word ≠ []) {rest : List Char}
    (hhead : ∀ c ∈ rest.head?, isWordChar c = false) : word ∈ tokensFrom word rest := by
  have hread : word ∈ readToken word := by
    rw [readToken, if_neg (mt List.isEmpty_iff.mp hne)]
    exact List.mem_singleton_self word
  cases rest with
  | nil => exact hread
  | cons c rest =>
      rw [tokensFrom_nonword (hhead c rfl)]
      exact List.mem_append_left _ (List.mem_append_left _ hread)

theorem semicolon_mem_tokensFrom {text : List Char} (hmem : ';' ∈ text) (word : List Char) :
    [';'] ∈ tokensFrom word text := by
  induction text generalizing word with
  | nil => exact absurd hmem List.not_mem_nil
  | cons c rest ih =>
      rcases List.mem_cons.mp hmem with heq | hrest
      · rw [← heq, tokensFrom_nonword (by decide)]
        exact List.mem_append_left _ (List.mem_append_right _ (List.mem_singleton_self _))
      · rw [tokensFrom]
        split
        · exact ih hrest _
        · exact List.mem_append_right _ (ih hrest _)

/-! ## Case and white space -/

theorem isUpper_iff {c : Char} : c.isUpper = true ↔ 65 ≤ c.toNat ∧ c.toNat ≤ 90 := by
  change decide (c.val ≥ 'A'.val ∧ c.val ≤ 'Z'.val) = true ↔ _
  rw [decide_eq_true_iff, ge_iff_le, UInt32.le_iff_toNat_le, UInt32.le_iff_toNat_le]
  exact Iff.rfl

theorem isLower_iff {c : Char} : c.isLower = true ↔ 97 ≤ c.toNat ∧ c.toNat ≤ 122 := by
  change (decide (c.val ≥ 'a'.val) && decide (c.val ≤ 'z'.val)) = true ↔ _
  rw [Bool.and_eq_true, decide_eq_true_iff, decide_eq_true_iff, ge_iff_le, UInt32.le_iff_toNat_le,
    UInt32.le_iff_toNat_le]
  exact Iff.rfl

theorem toNat_of_isTrimmed {c : Char} (htrimmed : isTrimmed c = true) :
    c.toNat < 48 ∨ 128 ≤ c.toNat ∧ c.toNat ≠ 0x130 ∧ c.toNat ≠ 0x212A := by
  rw [isTrimmed, Bool.or_eq_true, Bool.or_eq_true, decide_eq_true_iff, decide_eq_true_iff, List.contains_iff_mem] at htrimmed
  simp only [List.mem_cons, List.not_mem_nil, or_false] at htrimmed
  omega

theorem lowerChar_of_isTrimmed {c : Char} (htrimmed : isTrimmed c = true) : lowerChar c = [c] := by
  have hnat := toNat_of_isTrimmed htrimmed
  rw [lowerChar, if_neg (by rw [isUpper_iff]; omega), if_neg (by omega), if_neg (by omega)]

theorem isWordChar_of_isTrimmed {c : Char} (htrimmed : isTrimmed c = true) : isWordChar c = false := by
  have hnat := toNat_of_isTrimmed htrimmed
  have hlower : c.isLower = false := by
    rw [Bool.eq_false_iff, Ne, isLower_iff]
    omega
  have hscore : c ≠ '_' := by
    intro heq
    rw [heq] at hnat
    exact absurd hnat (by decide)
  rw [isWordChar, hlower, decide_eq_false hscore, Bool.or_false]

theorem ne_semicolon_of_isTrimmed {c : Char} (htrimmed : isTrimmed c = true) : c ≠ ';' := by
  intro heq
  rw [heq] at htrimmed
  exact absurd htrimmed (by decide)

theorem lowerChar_of_letter {c : Char} (hletter : c.toLower.isLower = true) : lowerChar c = [c.toLower] := by
  by_cases hupper : c.isUpper = true
  · rw [lowerChar, if_pos hupper]
  · have hsame : c.toLower = c := dif_neg fun h => hupper (decide_eq_true h)
    rw [hsame, isLower_iff] at hletter
    rw [lowerChar, if_neg hupper, if_neg (by omega), if_neg (by omega), hsame]

theorem flatMap_lowerChar {list : List Char} {f : Char → Char} (hone : ∀ c ∈ list, lowerChar c = [f c]) :
    list.flatMap lowerChar = list.map f := by
  induction list with
  | nil => rfl
  | cons c list ih =>
      rw [List.flatMap_cons, hone c (List.mem_cons_self ..), ih fun d hd => hone d (List.mem_cons_of_mem _ hd)]
      rfl

theorem tokensFrom_concat {c : Char} (htrimmed : isTrimmed c = true) (word text : List Char) :
    tokensFrom word (text ++ [c]) = tokensFrom word text := by
  induction text generalizing word with
  | nil =>
      rw [List.nil_append, tokensFrom_nonword (isWordChar_of_isTrimmed htrimmed),
        if_neg (ne_semicolon_of_isTrimmed htrimmed), List.append_nil]
      exact List.append_nil _
  | cons d text ih =>
      rw [List.cons_append, tokensFrom, tokensFrom, ih, ih]

theorem tokensFrom_dropWhile (text : List Char) :
    tokensFrom [] ((text.dropWhile isTrimmed).flatMap lowerChar) = tokensFrom [] (text.flatMap lowerChar) := by
  induction text with
  | nil => rfl
  | cons c text ih =>
      rw [List.dropWhile_cons]
      split
      · next htrimmed =>
          rw [ih, List.flatMap_cons, lowerChar_of_isTrimmed htrimmed, List.singleton_append,
            tokensFrom_nonword (isWordChar_of_isTrimmed htrimmed), if_neg (ne_semicolon_of_isTrimmed htrimmed)]
          rfl
      · rfl

theorem tokensFrom_rdropWhile (word text : List Char) :
    tokensFrom word ((text.rdropWhile isTrimmed).flatMap lowerChar) = tokensFrom word (text.flatMap lowerChar) := by
  induction text using List.reverseRecOn with
  | nil => rfl
  | append_singleton text c ih =>
      rw [List.rdropWhile_concat]
      split
      · next htrimmed =>
          rw [ih, List.flatMap_append, List.flatMap_singleton, lowerChar_of_isTrimmed htrimmed, tokensFrom_concat htrimmed]
      · rfl

/-- White space at the ends has no part in the tokens. -/
theorem readTokens_eq (text : List Char) :
    readTokens text = (tokensFrom [] (text.flatMap lowerChar)).map String.ofList := by
  rw [readTokens, trim, tokensFrom_rdropWhile, tokensFrom_dropWhile]

/-! ## What an accepted statement holds -/

section Accepted

variable {sql : String} (haccepted : assertReadOnlySql sql = .ok ())

theorem readTokens_stripped (sql : String) :
    readTokens (stripLiteralsAndComments id ['\'', '\''] ['"', '"'] sql.toList)
      = (tokensFrom [] (guardText (strippedSpots sql))).map String.ofList := by
  rw [readTokens_eq, guardText, strippedSpots_text]

include haccepted

theorem tokens_of_accepted {word : List Char} (hword : word ∈ tokensFrom [] (guardText (strippedSpots sql))) :
    String.ofList word ≠ ";" ∧ String.ofList word ∉ mutationTokens := by
  have hmem : String.ofList word ∈ (tokensFrom [] (guardText (strippedSpots sql))).map String.ofList :=
    List.mem_map_of_mem hword
  rw [assertReadOnlySql, readTokens_stripped] at haccepted
  split at haccepted
  · exact nomatch haccepted
  · split at haccepted
    · exact nomatch haccepted
    · next hseparator =>
        split at haccepted
        · exact nomatch haccepted
        · next hmutation =>
            constructor
            · exact fun heq => hseparator (List.any_eq_true.mpr ⟨_, hmem, decide_eq_true heq⟩)
            · exact fun hin => hmutation (List.any_eq_true.mpr ⟨_, hmem, List.contains_iff_mem.mpr hin⟩)

/-- What is left over of an accepted statement has no semicolon. -/
theorem semicolon_not_stripped {spot : Spot} (hspot : spot.1 = ';') : spot ∉ strippedSpots sql := by
  intro hmem
  have htext : ';' ∈ guardText (strippedSpots sql) := by
    rw [guardText, List.mem_flatMap]
    exact ⟨spot.1, List.mem_map_of_mem hmem, by rw [hspot]; decide⟩
  exact (tokens_of_accepted haccepted (semicolon_mem_tokensFrom htext [])).1 rfl

/-- No word for a change stands alone in what is left over of an accepted statement. -/
theorem mutation_not_alone {word : List Spot} (hmutation : IsMutation word) :
    ¬ StandsAlone (strippedSpots sql) word := by
  intro halone
  obtain ⟨front, back, hstripped, hfront, hback⟩ := halone
  have hletters : ∀ c ∈ word.map fun spot => spot.1.toLower, c.isLower = true := by
    have hkeywords : mutationTokens.all fun token => token.toList.all Char.isLower := by decide +kernel
    have hkeyword := List.all_eq_true.mp hkeywords _ hmutation
    rwa [String.toList_ofList, List.all_eq_true] at hkeyword
  have hword : guardText word = word.map fun spot => spot.1.toLower := by
    rw [guardText, flatMap_lowerChar (f := Char.toLower), List.map_map]
    · rfl
    · intro c hc
      obtain ⟨spot, hspot, rfl⟩ := List.mem_map.mp hc
      exact lowerChar_of_letter (hletters _ (List.mem_map_of_mem hspot))
  have htext : guardText (strippedSpots sql) = guardText front ++ (guardText word ++ guardText back) := by
    rw [hstripped, guardText, List.map_append, List.map_append, List.flatMap_append, List.flatMap_append]
    rfl
  have hne : guardText word ≠ [] := by
    intro hnil
    rw [IsMutation, ← hword, hnil] at hmutation
    exact absurd hmutation (by decide)
  obtain ⟨before, hbefore⟩ := tokensFrom_front hfront (guardText word ++ guardText back)
  have htoken : guardText word ∈ tokensFrom [] (guardText (strippedSpots sql)) := by
    rw [htext, hbefore, tokensFrom_word, List.nil_append]
    · exact List.mem_append_right _ (mem_tokensFrom hne hback)
    · intro c hc
      rw [isWordChar, hletters c (hword ▸ hc), Bool.true_or]
  refine (tokens_of_accepted haccepted htoken).2 ?_
  rw [hword]
  exact hmutation

end Accepted

end CantonSdk.Query.Pqs
