import CantonSdk.Query.Canonical.Comparison
import Mathlib.Data.List.Infix

/-!
# Patterns as regular expressions

`sqlLike` walks its pattern by UTF-16 code unit and writes a regular expression, which the host reads by code
point. Of the syntax of regular expressions only what can come out of a pattern is modelled, and anything else
is rejected. The regular expression of a pattern is never rejected, and it matches what the pattern matches in
SQL, where a backslash stands before a character.
-/

set_option linter.all false

namespace CantonSdk.Query.Canonical

open CantonSdk.Base

/-! ## Patterns of SQL -/

/-- The text matches the pattern. -/
inductive Like : List Char → List Char → Prop
  | empty : Like [] []
  | percent {pattern rest : List Char} (skipped : List Char) (h : Like pattern rest) :
      Like ('%' :: pattern) (skipped ++ rest)
  | underscore {pattern rest : List Char} (c : Char) (h : Like pattern rest) : Like ('_' :: pattern) (c :: rest)
  | escaped {pattern rest : List Char} (c : Char) (h : Like pattern rest) : Like ('\\' :: c :: pattern) (c :: rest)
  | plain {pattern rest : List Char} {c : Char} (hpercent : c ≠ '%') (hunderscore : c ≠ '_') (hescape : c ≠ '\\')
      (h : Like pattern rest) : Like (c :: pattern) (c :: rest)

/-- The pattern ends in a backslash that no backslash stands before. -/
def endsUnpaired : List Char → Bool
  | [] => false
  | ['\\'] => true
  | '\\' :: _ :: rest => endsUnpaired rest
  | _ :: rest => endsUnpaired rest

namespace LikePattern

/-! ## The regular expression of a pattern -/

/-- `[.*+?^${}()|[\]\\]`. -/
def syntaxCharacters : List Nat := ".*+?^$\x7b\x7d()|[]\\".toList.map Char.toNat

/-- `escapeRegex`, of one code unit. -/
def escapeRegex (unit : Nat) : List Nat := if unit ∈ syntaxCharacters then ['\\'.toNat, unit] else [unit]

/-- What a code unit without a backslash before it adds. -/
def elementUnits (unit : Nat) : List Nat :=
  if unit = '%'.toNat then ['.'.toNat, '*'.toNat]
  else if unit = '_'.toNat then ['.'.toNat]
  else escapeRegex unit

/-- The loop of `sqlLike`. A backslash at the end stands for itself. -/
def patternUnits : List Nat → List Nat
  | [] => []
  | [unit] => elementUnits unit
  | unit :: next :: rest =>
      if unit = '\\'.toNat then escapeRegex next ++ patternUnits rest
      else elementUnits unit ++ patternUnits (next :: rest)

/-! ## Regular expressions with the flags `s` and `u` -/

/-- The code points of a text: with the flag `u`, a pair of surrogates is one. -/
def codePoints : List Nat → List Nat
  | high :: low :: rest =>
      if (0xD800 ≤ high ∧ high < 0xDC00) ∧ 0xDC00 ≤ low ∧ low < 0xE000 then
        (0x10000 + (high - 0xD800) * 0x400 + (low - 0xDC00)) :: codePoints rest
      else high :: codePoints (low :: rest)
  | units => units

inductive Term where
  /-- `^`. -/
  | start
  /-- `$`. -/
  | finish
  /-- `.`. -/
  | anyPoint
  /-- `.*`. -/
  | anyPoints
  | literal (point : Nat)
  deriving DecidableEq

/-- The term of one code point that no backslash stands before. -/
def parseTerm (point : Nat) : Option Term :=
  if point = '^'.toNat then some .start
  else if point = '$'.toNat then some .finish
  else if point = '.'.toNat then some .anyPoint
  else if point ∈ syntaxCharacters then none
  else some (.literal point)

def parse : List Nat → Option (List Term)
  | [] => some []
  | [point] => (fun term => [term]) <$> parseTerm point
  | point :: next :: rest =>
      if point = '\\'.toNat then
        if next ∈ syntaxCharacters then (.literal next :: ·) <$> parse rest else none
      else if point = '.'.toNat ∧ next = '*'.toNat then (.anyPoints :: ·) <$> parse rest
      else do
        let term ← parseTerm point
        (term :: ·) <$> parse (next :: rest)

/-- Whether the terms match from here. -/
def matchesHere : List Term → Bool → List Nat → Bool
  | [], _, _ => true
  | .start :: terms, atStart, text => atStart && matchesHere terms atStart text
  | .finish :: terms, atStart, text => text.isEmpty && matchesHere terms atStart text
  | .anyPoint :: terms, _, text =>
      match text with
      | [] => false
      | _ :: rest => matchesHere terms false rest
  | .literal point :: terms, _, text =>
      match text with
      | [] => false
      | other :: rest => decide (point = other) && matchesHere terms false rest
  | .anyPoints :: terms, atStart, text =>
      matchesHere terms atStart text || text.tails.tail.any (matchesHere terms false)

/-- `new RegExp(source, "su").test(value)`, unless the source is rejected. -/
def test (source value : List Nat) : Option Bool := do
  let terms ← parse (codePoints source)
  let text := codePoints value
  return matchesHere terms true text || text.tails.tail.any (matchesHere terms false)

/-- `sqlLike(value, pattern, false)`. -/
def sqlLike (value pattern : String) : Option Bool :=
  test ('^'.toNat :: patternUnits (codeUnits pattern) ++ ['$'.toNat]) (codeUnits value)

/-! ## Code points of patterns -/

theorem codePoints_cons {unit : Nat} {rest : List Nat} (h : unit < 0xD800 ∨ 0xDBFF < unit) :
    codePoints (unit :: rest) = unit :: codePoints rest := by
  cases rest with
  | nil => rfl
  | cons next others => rw [codePoints, if_neg (by omega)]

theorem codePoints_pair {high low : Nat} {rest : List Nat} (hhigh : 0xD800 ≤ high ∧ high < 0xDC00)
    (hlow : 0xDC00 ≤ low ∧ low < 0xE000) :
    codePoints (high :: low :: rest) = (0x10000 + (high - 0xD800) * 0x400 + (low - 0xDC00)) :: codePoints rest := by
  rw [codePoints, if_pos ⟨hhigh, hlow⟩]

/-- A character is one code point. -/
theorem codePoints_char (c : Char) (rest : List Nat) : codePoints (charUnits c ++ rest) = c.toNat :: codePoints rest := by
  have hvalid := toNat_valid c
  unfold charUnits
  split
  · exact codePoints_cons (by omega)
  · have hpoint : 0x10000 + (0xD800 + (c.toNat - 0x10000) / 0x400 - 0xD800) * 0x400
        + (0xDC00 + (c.toNat - 0x10000) % 0x400 - 0xDC00) = c.toNat := by omega
    rw [List.cons_append, List.cons_append, List.nil_append, codePoints_pair (by omega) (by omega), hpoint]

theorem codePoints_codeUnits (text : List Char) : codePoints (text.flatMap charUnits) = text.map Char.toNat := by
  induction text with
  | nil => rfl
  | cons c rest ih => rw [List.flatMap_cons, codePoints_char, ih, List.map_cons]

/-- The points that a token adds to the regular expression. -/
def tokenPoints : LikeToken → List Nat
  | .anyText => ['.'.toNat, '*'.toNat]
  | .anyChar => ['.'.toNat]
  | .literal c => escapeRegex c.toNat

theorem not_mem_syntaxCharacters {unit : Nat} (h : 127 < unit) : unit ∉ syntaxCharacters := by
  intro hmem
  have hall : syntaxCharacters.all fun unit => decide (unit ≤ 127) := by decide
  have := of_decide_eq_true (List.all_eq_true.mp hall unit hmem)
  omega

theorem escapeRegex_large {unit : Nat} (h : 127 < unit) : escapeRegex unit = [unit] :=
  if_neg (not_mem_syntaxCharacters h)

theorem elementUnits_large {unit : Nat} (h : 127 < unit) : elementUnits unit = [unit] := by
  have hpercent : '%'.toNat = 37 := rfl
  have hunderscore : '_'.toNat = 95 := rfl
  rw [elementUnits, if_neg (by omega), if_neg (by omega), escapeRegex_large h]

theorem patternUnits_cons {unit : Nat} {rest : List Nat} (h : unit ≠ '\\'.toNat ∨ rest = []) :
    patternUnits (unit :: rest) = elementUnits unit ++ patternUnits rest := by
  cases rest with
  | nil => rw [patternUnits, patternUnits, List.append_nil]
  | cons next others => rw [patternUnits, if_neg (h.resolve_right (List.cons_ne_nil _ _))]

theorem patternUnits_escaped (next : Nat) (rest : List Nat) :
    patternUnits ('\\'.toNat :: next :: rest) = escapeRegex next ++ patternUnits rest := by
  rw [patternUnits, if_pos rfl]

/-- An escaped unit is read as it is written. -/
theorem codePoints_escapeRegex {unit : Nat} (h : unit < 0xD800 ∨ 0xDBFF < unit) (rest : List Nat) :
    codePoints (escapeRegex unit ++ rest) = escapeRegex unit ++ codePoints rest := by
  rw [escapeRegex]
  split
  · have hbackslash : '\\'.toNat = 92 := rfl
    rw [List.cons_append, List.cons_append, List.nil_append, codePoints_cons (by omega), codePoints_cons h]
    rfl
  · exact codePoints_cons h

/-- What a character adds, wherever it is written as itself. -/
theorem codePoints_pair_char {c : Char} (h : 0x10000 ≤ c.toNat) (rest : List Nat) :
    ∃ high low, charUnits c = [high, low] ∧ 127 < high ∧ 127 < low ∧ high ≠ '\\'.toNat ∧ low ≠ '\\'.toNat ∧
      codePoints (high :: low :: rest) = escapeRegex c.toNat ++ codePoints rest := by
  have hvalid := toNat_valid c
  have hbackslash : '\\'.toNat = 92 := rfl
  refine ⟨_, _, if_neg (by omega), by omega, by omega, by omega, by omega, ?_⟩
  have hchar := codePoints_char c rest
  rw [charUnits, if_neg (by omega)] at hchar
  rw [escapeRegex_large (by omega)]
  exact hchar

theorem charUnits_small {c : Char} (h : ¬ 0x10000 ≤ c.toNat) : charUnits c = [c.toNat] := if_pos (by omega)

theorem toNat_ne {c d : Char} (h : c ≠ d) : c.toNat ≠ d.toNat := fun heq => h (Char.toNat_inj.mp heq)

/-- The regular expression of a pattern, as the host reads it. -/
theorem codePoints_patternUnits (pattern : List Char) (rest : List Nat) :
    codePoints (patternUnits (pattern.flatMap charUnits) ++ rest)
      = (likeTokens pattern).flatMap tokenPoints ++ codePoints rest := by
  induction pattern using likeTokens.induct with
  | case1 => rfl
  | case2 c others ih =>
      have hescape : charUnits '\\' = ['\\'.toNat] := rfl
      rw [likeTokens, List.flatMap_cons, List.flatMap_cons, List.flatMap_cons, tokenPoints, hescape, List.append_assoc, ← ih]
      by_cases hsmall : 0x10000 ≤ c.toNat
      · obtain ⟨high, low, hunits, hhigh, hlow, _, hne, hpair⟩ := codePoints_pair_char hsmall
          (patternUnits (others.flatMap charUnits) ++ rest)
        have hwritten : patternUnits (['\\'.toNat] ++ ([high, low] ++ others.flatMap charUnits))
            = high :: low :: patternUnits (others.flatMap charUnits) := by
          change patternUnits ('\\'.toNat :: high :: (low :: others.flatMap charUnits)) = _
          rw [patternUnits_escaped, escapeRegex_large hhigh, patternUnits_cons (Or.inl hne), elementUnits_large hlow]
          rfl
        rw [hunits, hwritten, ← hpair]
        rfl
      · have hvalid := toNat_valid c
        have hwritten : patternUnits (['\\'.toNat] ++ ([c.toNat] ++ others.flatMap charUnits))
            = escapeRegex c.toNat ++ patternUnits (others.flatMap charUnits) := patternUnits_escaped _ _
        rw [charUnits_small hsmall, hwritten, List.append_assoc, codePoints_escapeRegex (by omega)]
  | case3 others ih =>
      have hpercent : charUnits '%' = ['%'.toNat] := rfl
      have hwritten : patternUnits (['%'.toNat] ++ others.flatMap charUnits)
          = '.'.toNat :: '*'.toNat :: patternUnits (others.flatMap charUnits) :=
        patternUnits_cons (Or.inl (by decide))
      rw [likeTokens, List.flatMap_cons, List.flatMap_cons, tokenPoints, hpercent, List.append_assoc, ← ih, hwritten,
        List.cons_append, List.cons_append, codePoints_cons (Or.inl (by decide)), codePoints_cons (Or.inl (by decide))]
      rfl
  | case4 others ih =>
      have hunderscore : charUnits '_' = ['_'.toNat] := rfl
      have hwritten : patternUnits (['_'.toNat] ++ others.flatMap charUnits)
          = '.'.toNat :: patternUnits (others.flatMap charUnits) := patternUnits_cons (Or.inl (by decide))
      rw [likeTokens, List.flatMap_cons, List.flatMap_cons, tokenPoints, hunderscore, List.append_assoc, ← ih, hwritten,
        List.cons_append, codePoints_cons (Or.inl (by decide))]
      rfl
  | case5 c others hescape hpercent hunderscore ih =>
      rw [likeTokens, List.flatMap_cons, List.flatMap_cons, tokenPoints, List.append_assoc, ← ih]
      · by_cases hsmall : 0x10000 ≤ c.toNat
        · obtain ⟨high, low, hunits, hhigh, hlow, hne, hne', hpair⟩ := codePoints_pair_char hsmall
            (patternUnits (others.flatMap charUnits) ++ rest)
          have hwritten : patternUnits ([high, low] ++ others.flatMap charUnits)
              = high :: low :: patternUnits (others.flatMap charUnits) := by
            change patternUnits (high :: (low :: others.flatMap charUnits)) = _
            rw [patternUnits_cons (Or.inl hne), elementUnits_large hhigh, patternUnits_cons (Or.inl hne'),
              elementUnits_large hlow]
            rfl
          rw [hunits, hwritten, ← hpair]
          rfl
        · have hvalid := toNat_valid c
          have hlast : c.toNat ≠ '\\'.toNat ∨ others.flatMap charUnits = [] := by
            by_cases hbackslash : c = '\\'
            · cases others with
              | nil => exact Or.inr rfl
              | cons d rest => exact (hescape d rest hbackslash rfl).elim
            · exact Or.inl (toNat_ne hbackslash)
          have hwritten : patternUnits ([c.toNat] ++ others.flatMap charUnits)
              = escapeRegex c.toNat ++ patternUnits (others.flatMap charUnits) := by
            change patternUnits (c.toNat :: others.flatMap charUnits) = _
            rw [patternUnits_cons hlast, elementUnits, if_neg (toNat_ne hpercent), if_neg (toNat_ne hunderscore)]
          rw [charUnits_small hsmall, hwritten, List.append_assoc, codePoints_escapeRegex (by omega)]
      · exact hescape
      · exact hpercent
      · exact hunderscore

/-! ## Terms of patterns -/

def tokenTerm : LikeToken → Term
  | .anyText => .anyPoints
  | .anyChar => .anyPoint
  | .literal c => .literal c.toNat

/-- What stands behind a term does not change it. -/
def Separated (points : List Nat) : Prop := points.head? ≠ some '*'.toNat

theorem escapeRegex_separated (unit : Nat) (rest : List Nat) : Separated (escapeRegex unit ++ rest) := by
  rw [Separated, escapeRegex]
  split
  · simp
  · next hplain =>
      have hstar : '*'.toNat ∈ syntaxCharacters := by decide
      intro h
      rw [List.cons_append, List.head?_cons, Option.some.injEq] at h
      exact hplain (h ▸ hstar)

theorem tokens_separated (tokens : List LikeToken) {rest : List Nat} (hrest : Separated rest) :
    Separated (tokens.flatMap tokenPoints ++ rest) := by
  cases tokens with
  | nil => exact hrest
  | cons token others =>
      rw [List.flatMap_cons, List.append_assoc]
      cases token with
      | anyText => simp [tokenPoints, Separated]
      | anyChar => simp [tokenPoints, Separated]
      | literal c => exact escapeRegex_separated _ _

theorem parse_term {point : Nat} {term : Term} {rest : List Nat} (hterm : parseTerm point = some term)
    (hescape : point ≠ '\\'.toNat) (hrest : point = '.'.toNat → Separated rest) :
    parse (point :: rest) = (term :: ·) <$> parse rest := by
  cases rest with
  | nil => simp [parse, hterm]
  | cons next others =>
      have hstar : ¬ (point = '.'.toNat ∧ next = '*'.toNat) := by
        rintro ⟨hpoint, rfl⟩
        exact hrest hpoint rfl
      rw [parse, if_neg hescape, if_neg hstar, hterm]
      rfl

/-- A literal is read back, escaped or not. -/
theorem parse_escapeRegex (unit : Nat) (rest : List Nat) :
    parse (escapeRegex unit ++ rest) = (.literal unit :: ·) <$> parse rest := by
  by_cases hsyntax : unit ∈ syntaxCharacters
  · rw [escapeRegex, if_pos hsyntax, List.cons_append, List.cons_append, List.nil_append, parse, if_pos rfl,
      if_pos hsyntax]
  · have hne : ∀ other ∈ syntaxCharacters, unit ≠ other := by
      rintro other hother rfl
      exact hsyntax hother
    rw [escapeRegex, if_neg hsyntax, List.cons_append, List.nil_append]
    refine parse_term ?_ (hne _ (by decide)) fun hdot => (hne _ (by decide) hdot).elim
    rw [parseTerm, if_neg (hne _ (by decide)), if_neg (hne _ (by decide)), if_neg (hne _ (by decide)), if_neg hsyntax]

theorem parse_tokens (tokens : List LikeToken) {rest : List Nat} (hrest : Separated rest) :
    parse (tokens.flatMap tokenPoints ++ rest) = (tokens.map tokenTerm ++ ·) <$> parse rest := by
  induction tokens with
  | nil => simp
  | cons token others ih =>
      rw [List.flatMap_cons, List.append_assoc]
      have hmap : ∀ term : Term, (term :: ·) <$> parse (others.flatMap tokenPoints ++ rest)
          = (term :: others.map tokenTerm ++ ·) <$> parse rest := by
        intro term
        rw [ih]
        cases parse rest <;> rfl
      rw [List.map_cons]
      cases token with
      | anyText =>
          rw [tokenPoints, List.cons_append, List.cons_append, List.nil_append, parse, if_neg (by decide),
            if_pos ⟨rfl, rfl⟩]
          exact hmap _
      | anyChar =>
          rw [tokenPoints, List.cons_append, List.nil_append,
            parse_term (rfl : parseTerm '.'.toNat = some .anyPoint) (by decide) fun _ => tokens_separated others hrest]
          exact hmap _
      | literal c =>
          rw [tokenPoints, parse_escapeRegex]
          exact hmap _

/-! ## Matching -/

theorem any_tails {α : Type} (p : List α → Bool) (list : List α) :
    list.tails.any p = (p list || list.tails.tail.any p) := by
  cases list <;> simp

theorem tails_map {α β : Type} (f : α → β) (list : List α) : (list.map f).tails = list.tails.map (List.map f) := by
  induction list with
  | nil => rfl
  | cons a rest ih => rw [List.map_cons, List.tails_cons, List.tails_cons, ih, List.map_cons, List.map_cons]

/-- The terms of tokens match a text as the tokens do. -/
theorem matchesHere_tokens (tokens : List LikeToken) (atStart : Bool) (text : List Char) :
    matchesHere (tokens.map tokenTerm ++ [.finish]) atStart (text.map Char.toNat)
      = likeMatches (fun c d => decide (c = d)) tokens text := by
  induction tokens generalizing atStart text with
  | nil => simp [matchesHere, likeMatches]
  | cons token others ih =>
      rw [List.map_cons, List.cons_append]
      cases token with
      | anyText =>
          have htails : (text.map Char.toNat).tails.tail = text.tails.tail.map (List.map Char.toNat) := by
            rw [tails_map, List.map_tail]
          rw [tokenTerm, matchesHere, likeMatches, any_tails, ih, htails, List.any_map]
          congr 2
          funext rest
          exact ih false rest
      | anyChar =>
          cases text with
          | nil => rfl
          | cons c rest => exact ih false rest
      | literal c =>
          cases text with
          | nil => rfl
          | cons d rest =>
              rw [List.map_cons, tokenTerm, matchesHere, likeMatches, ih false rest, decide_eq_decide.mpr Char.toNat_inj]

/-- The regular expression of a pattern matches what its tokens match. -/
theorem sqlLike_eq (value pattern : String) :
    sqlLike value pattern = some (likeMatches (fun c d => decide (c = d)) (likeTokens pattern.toList) value.toList) := by
  have hsource : codePoints ('^'.toNat :: patternUnits (codeUnits pattern) ++ ['$'.toNat])
      = '^'.toNat :: ((likeTokens pattern.toList).flatMap tokenPoints ++ ['$'.toNat]) := by
    rw [List.cons_append, codePoints_cons (Or.inl (by decide)), codeUnits, codePoints_patternUnits]
    rfl
  have hfinish : parse ['$'.toNat] = some [.finish] := rfl
  have hparse : parse ('^'.toNat :: ((likeTokens pattern.toList).flatMap tokenPoints ++ ['$'.toNat]))
      = some (.start :: ((likeTokens pattern.toList).map tokenTerm ++ [.finish])) := by
    have hstart : '^'.toNat ≠ '.'.toNat := by decide
    rw [parse_term (rfl : parseTerm '^'.toNat = some .start) (by decide) fun h => (hstart h).elim, parse_tokens _ (by simp [Separated]), hfinish]
    rfl
  have hlater : matchesHere (.start :: ((likeTokens pattern.toList).map tokenTerm ++ [.finish])) false
      = fun _ => false := by
    funext rest
    rfl
  rw [sqlLike, test, hsource, hparse, codeUnits, codePoints_codeUnits]
  change some (_ || List.any _ _) = _
  rw [matchesHere, Bool.true_and, matchesHere_tokens, hlater]
  simp

/-- What the evaluator of queries does with a pattern is what its regular expression does. -/
theorem sqlLike_canonical (runtime : JsRuntime) (value pattern : String) :
    sqlLike value pattern = some (Canonical.sqlLike runtime value pattern false) := sqlLike_eq value pattern

/-! ## The meaning in SQL -/

/-- The tokens of a pattern in which every backslash stands before a character match what the pattern matches. -/
theorem likeMatches_iff {pattern : List Char} (hpaired : endsUnpaired pattern = false) {text : List Char} :
    likeMatches (fun c d => decide (c = d)) (likeTokens pattern) text = true ↔ Like pattern text := by
  induction pattern using likeTokens.induct generalizing text with
  | case1 =>
      rw [likeTokens, likeMatches, List.isEmpty_iff]
      constructor
      · rintro rfl
        exact .empty
      · intro h
        cases h
        rfl
  | case2 c others ih =>
      rw [likeTokens]
      cases text with
      | nil => exact iff_of_false (by simp [likeMatches]) fun h => by cases h
      | cons d rest =>
          rw [likeMatches, Bool.and_eq_true, decide_eq_true_iff, ih (by simpa [endsUnpaired] using hpaired)]
          constructor
          · rintro ⟨rfl, h⟩
            exact .escaped c h
          · intro h
            cases h with
            | escaped _ h => exact ⟨rfl, h⟩
            | plain _ _ hescape _ => exact absurd rfl hescape
  | case3 others ih =>
      have hpaired : endsUnpaired others = false := by simpa [endsUnpaired] using hpaired
      rw [likeTokens, likeMatches, List.any_eq_true]
      constructor
      · rintro ⟨rest, hrest, h⟩
        obtain ⟨skipped, rfl⟩ := (List.mem_tails _ _).mp hrest
        exact .percent skipped ((ih hpaired).mp h)
      · intro h
        cases h with
        | @percent _ rest skipped h =>
            exact ⟨rest, (List.mem_tails _ _).mpr (List.suffix_append skipped rest), (ih hpaired).mpr h⟩
        | plain hpercent => exact absurd rfl hpercent
  | case4 others ih =>
      have hpaired : endsUnpaired others = false := by simpa [endsUnpaired] using hpaired
      rw [likeTokens]
      cases text with
      | nil => exact iff_of_false (by simp [likeMatches]) fun h => by cases h
      | cons d rest =>
          rw [likeMatches]
          refine (ih hpaired).trans ?_
          constructor
          · exact .underscore d
          · intro h
            cases h with
            | underscore _ h => exact h
            | plain _ hunderscore => exact absurd rfl hunderscore
  | case5 c others hescape hpercent hunderscore ih =>
      -- A backslash here would be the last character.
      have hplain : c ≠ '\\' := by
        rintro rfl
        cases others with
        | nil => cases hpaired
        | cons d rest => exact hescape d rest rfl rfl
      have hpaired : endsUnpaired others = false := by
        rw [← hpaired, endsUnpaired]
        · exact fun heq _ => hplain heq
        · exact fun _ _ heq _ => hplain heq
      have hlike : Like (c :: others) text ↔ ∃ rest, text = c :: rest ∧ Like others rest := by
        constructor
        · intro h
          cases h with
          | plain _ _ _ h => exact ⟨_, rfl, h⟩
          | percent => exact absurd rfl hpercent
          | underscore => exact absurd rfl hunderscore
          | escaped => exact absurd rfl hplain
        · rintro ⟨rest, rfl, h⟩
          exact .plain hpercent hunderscore hplain h
      rw [hlike, likeTokens]
      · cases text with
        | nil => simp [likeMatches]
        | cons d rest =>
            rw [likeMatches, Bool.and_eq_true, decide_eq_true_iff, ih hpaired]
            constructor
            · rintro ⟨rfl, h⟩
              exact ⟨rest, rfl, h⟩
            · rintro ⟨_, heq, h⟩
              obtain ⟨rfl, rfl⟩ := List.cons.inj heq
              exact ⟨rfl, h⟩
      · exact hescape
      · exact hpercent
      · exact hunderscore

end LikePattern

end CantonSdk.Query.Canonical
