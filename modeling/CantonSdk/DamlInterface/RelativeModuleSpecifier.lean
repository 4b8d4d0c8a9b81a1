import CantonSdk.Base.Segments

/-!
# Specifiers of relative imports

How one generated file names another one. The directories that both paths begin with are taken off in step; when the
path of the target, without its extension, is the directory of the importing file or one above it, the name of the
target is taken off as well.
-/

set_option linter.all false

namespace CantonSdk.DamlInterface

open CantonSdk.Base

inductive DamlModuleImportStyle
  | esm
  | tsNode
  deriving DecidableEq

/-- `toPath.replace(/\.ts$/, "")`. -/
def removeExtension (path : List Char) : List Char :=
  if ".ts".toList.isSuffixOf path then path.take (path.length - 3) else path

/-- The directories of a path: `fromPath.split("/").slice(0, -1)`. -/
def directoriesOf (path : List Char) : List (List Char) := (path.splitOn '/').dropLast

def relativePathOf (upwards : List (List Char)) (downwards : List (List Char)) : List Char :=
  let joined := ['/'].intercalate (upwards.map (fun _ => "..".toList) ++ downwards)
  if joined.isEmpty then ".".toList else joined

def prefixedPathOf (relativePath : List Char) : List Char :=
  if relativePath.head? = some '.' then relativePath else "./".toList ++ relativePath

/-- What the style adds to the name of a module. -/
def DamlModuleImportStyle.ending : DamlModuleImportStyle → List Char
  | .esm => ".js".toList
  | .tsNode => []

/-- `RelativeModuleSpecifier.fromPaths`. -/
def fromPaths (fromPath toPath : String) (moduleImportStyle : DamlModuleImportStyle) : String :=
  let remaining := dropCommon (directoriesOf fromPath.toList) ((removeExtension toPath.toList).splitOn '/')
  String.ofList (prefixedPathOf (relativePathOf remaining.1 remaining.2) ++ moduleImportStyle.ending)

/-! ## What a specifier names -/

/-- One step along a relative path. -/
def resolveSegment (current : List (List Char)) (segment : List Char) : List (List Char) :=
  if segment = ".".toList then current
  else if segment = "..".toList then current.dropLast
  else current ++ [segment]

/-- The path that a specifier leads to from the directories. -/
def resolveFrom (directories : List (List Char)) (specifier : List Char) : List Char :=
  ['/'].intercalate ((specifier.splitOn '/').foldl resolveSegment directories)

def IsRelative (specifier : List Char) : Prop := "./".toList <+: specifier ∨ "../".toList <+: specifier

instance (specifier : List Char) : Decidable (IsRelative specifier) :=
  inferInstanceAs (Decidable ("./".toList <+: specifier ∨ "../".toList <+: specifier))

/-- The specifier is a relative one, and leads from the directory of the file to the target without its extension, or
with that of the style. -/
def Resolves (fromPath toPath : String) (moduleImportStyle : DamlModuleImportStyle) : Prop :=
  IsRelative (fromPaths fromPath toPath moduleImportStyle).toList
    ∧ resolveFrom (directoriesOf fromPath.toList) (fromPaths fromPath toPath moduleImportStyle).toList
      = removeExtension toPath.toList ++ moduleImportStyle.ending

/-- A path of segments that do not start with a dot, to a source file. -/
structure IsGeneratedPath (path : String) : Prop where
  noDot : ∀ segment ∈ path.toList.splitOn '/', segment.head? ≠ some '.'
  extension : ".ts".toList <:+ path.toList

/-- The segments of the target without its extension. -/
def stemOf (path : String) : List (List Char) := (removeExtension path.toList).splitOn '/'

section Stem

variable {toPath : String} (h : IsGeneratedPath toPath)

include h

theorem removeExtension_append : removeExtension toPath.toList ++ ".ts".toList = toPath.toList := by
  obtain ⟨stem, hstem⟩ := h.extension
  rw [removeExtension, if_pos (List.isSuffixOf_iff_suffix.mpr h.extension), ← hstem, List.length_append]
  show (stem ++ ".ts".toList).take (stem.length + 3 - 3) ++ ".ts".toList = stem ++ ".ts".toList
  rw [Nat.add_sub_cancel, List.take_left]

/-- The last segment of the stem is not empty, and no segment starts with a dot. -/
theorem stemOf_eq : ∃ directories name, stemOf toPath = directories ++ [name] ∧ name ≠ []
    ∧ ∀ segment ∈ stemOf toPath, segment.head? ≠ some '.' := by
  obtain ⟨directories, name, hstem, hpath⟩ :=
    splitOn_append (removeExtension toPath.toList) (show '/' ∉ ".ts".toList by decide)
  rw [removeExtension_append h] at hpath
  have hnoDot := h.noDot
  rw [hpath] at hnoDot
  have hname : name ≠ [] := by
    rintro rfl
    exact hnoDot ".ts".toList (List.mem_append_right _ (List.mem_singleton_self _)) rfl
  refine ⟨directories, name, hstem, hname, fun segment hsegment => ?_⟩
  rw [stemOf, hstem] at hsegment
  rcases List.mem_append.mp hsegment with hmem | hmem
  · exact hnoDot segment (List.mem_append_left _ hmem)
  · rw [List.mem_singleton.mp hmem]
    have hwhole := hnoDot (name ++ ".ts".toList) (List.mem_append_right _ (List.mem_singleton_self _))
    rwa [List.head?_append_of_ne_nil _ hname] at hwhole

end Stem

theorem not_mem_ending (moduleImportStyle : DamlModuleImportStyle) : '/' ∉ moduleImportStyle.ending := by
  cases moduleImportStyle with
  | esm => decide
  | tsNode => decide

/-! ## Steps along a path -/

/-- As many steps upwards as there are directories lead back. -/
theorem foldl_upwards (common upwards : List (List Char)) (steps : List (List Char))
    (hlength : steps.length = upwards.length) :
    (steps.map fun _ => "..".toList).foldl resolveSegment (common ++ upwards) = common := by
  induction steps generalizing upwards with
  | nil =>
      rw [List.eq_nil_of_length_eq_zero hlength.symm, List.append_nil]
      rfl
  | cons step steps ih =>
      rcases List.eq_nil_or_concat upwards with rfl | ⟨front, last, rfl⟩
      · cases hlength
      · rw [List.concat_eq_append] at hlength ⊢
        rw [List.length_cons, List.length_append] at hlength
        rw [List.map_cons, List.foldl_cons]
        show (steps.map fun _ => "..".toList).foldl resolveSegment (common ++ (front ++ [last])).dropLast = common
        rw [← List.append_assoc, List.dropLast_concat]
        exact ih front (Nat.succ.inj hlength)

/-- Segments that do not start with a dot are gone down one after the other. -/
theorem foldl_downwards (current : List (List Char)) {segments : List (List Char)}
    (hnoDot : ∀ segment ∈ segments, segment.head? ≠ some '.') :
    segments.foldl resolveSegment current = current ++ segments := by
  induction segments generalizing current with
  | nil => rw [List.append_nil, List.foldl_nil]
  | cons first rest ih =>
      have hfirst := hnoDot first List.mem_cons_self
      have hstep : resolveSegment current first = current ++ [first] := by
        rw [resolveSegment, if_neg, if_neg]
        · rintro rfl
          exact hfirst rfl
        · rintro rfl
          exact hfirst rfl
      rw [List.foldl_cons, hstep, ih _ fun segment hmem => hnoDot segment (List.mem_cons_of_mem _ hmem), List.append_assoc,
        List.singleton_append]

/-! ## A target that is not the directory of the file or above it -/

/-- The segments in front of those that are gone down. -/
def frontOf (upwards : List (List Char)) : List (List Char) :=
  if upwards = [] then [".".toList] else upwards.map fun _ => "..".toList

theorem frontOf_ne_nil (upwards : List (List Char)) : frontOf upwards ≠ [] := by
  rw [frontOf]
  split
  · exact List.cons_ne_nil _ _
  · rename_i hne
    exact fun h => hne (List.map_eq_nil_iff.mp h)

theorem foldl_frontOf (common upwards : List (List Char)) :
    (frontOf upwards).foldl resolveSegment (common ++ upwards) = common := by
  rw [frontOf]
  split
  · rename_i hnil
    rw [hnil, List.append_nil]
    rfl
  · exact foldl_upwards common upwards upwards rfl

theorem intercalate_append (front : List (List Char)) {rest : List (List Char)} (first : List Char) (hrest : rest ≠ []) :
    ['/'].intercalate (first :: front ++ rest) = first ++ '/' :: ['/'].intercalate (front ++ rest) := by
  rw [List.cons_append, List.intercalate_cons_of_ne_nil (by simp [hrest]), List.append_assoc, List.singleton_append]

theorem head_intercalate {segments : List (List Char)} (hnoDot : ∀ segment ∈ segments, segment.head? ≠ some '.') :
    (['/'].intercalate segments).head? ≠ some '.' := by
  cases segments with
  | nil => simp
  | cons first rest =>
      have hfirst := hnoDot first List.mem_cons_self
      cases rest with
      | nil => rwa [List.intercalate_singleton]
      | cons second rest =>
          rw [List.intercalate_cons_cons, List.append_assoc]
          cases first with
          | nil => simp
          | cons c cs => exact hfirst

theorem prefixedPathOf_eq {upwards front : List (List Char)} {name : List Char} (hname : name ≠ [])
    (hnoDot : ∀ segment ∈ front ++ [name], segment.head? ≠ some '.') :
    prefixedPathOf (relativePathOf upwards (front ++ [name])) = ['/'].intercalate (frontOf upwards ++ (front ++ [name])) := by
  cases upwards with
  | nil =>
      have hne : ['/'].intercalate (front ++ [name]) ≠ [] := by
        cases front with
        | nil => rwa [List.nil_append, List.intercalate_singleton]
        | cons first rest =>
            rw [intercalate_append rest first (List.cons_ne_nil _ _)]
            simp
      rw [relativePathOf, List.map_nil, List.nil_append, if_neg (by simpa using hne), prefixedPathOf,
        if_neg (head_intercalate hnoDot), frontOf, if_pos rfl]
      exact (intercalate_append [] ".".toList (by simp)).symm
  | cons upward upwards =>
      have hjoined := intercalate_append (upwards.map fun _ => "..".toList) "..".toList
        (show front ++ [name] ≠ [] by simp)
      rw [relativePathOf, List.map_cons, hjoined, if_neg (by simp), prefixedPathOf, frontOf,
        if_neg (List.cons_ne_nil _ _), List.map_cons, hjoined]
      exact if_pos rfl

theorem mem_frontOf {upwards : List (List Char)} {segment : List Char} (h : segment ∈ frontOf upwards) :
    segment = ".".toList ∨ segment = "..".toList := by
  rw [frontOf] at h
  split at h
  · exact .inl (List.mem_singleton.mp h)
  · obtain ⟨upward, -, rfl⟩ := List.mem_map.mp h
    exact .inr rfl

theorem isRelative_frontOf (upwards : List (List Char)) {rest : List (List Char)} (hrest : rest ≠ []) :
    IsRelative (['/'].intercalate (frontOf upwards ++ rest)) := by
  cases upwards with
  | nil =>
      refine .inl ⟨['/'].intercalate rest, ?_⟩
      rw [frontOf, if_pos rfl, intercalate_append [] ".".toList hrest]
      rfl
  | cons upward upwards =>
      refine .inr ⟨['/'].intercalate ((upwards.map fun _ => "..".toList) ++ rest), ?_⟩
      rw [frontOf, if_neg (List.cons_ne_nil _ _), List.map_cons, intercalate_append _ "..".toList hrest]
      rfl

/-- The specifier of a target of which something is left leads to the target. -/
theorem resolves_of_left {fromPath toPath : String} (h : IsGeneratedPath toPath) (moduleImportStyle : DamlModuleImportStyle)
    (hleft : ¬ stemOf toPath <+: directoriesOf fromPath.toList) : Resolves fromPath toPath moduleImportStyle := by
  obtain ⟨directories, name, hstem, hname, hnoDot⟩ := stemOf_eq h
  obtain ⟨common, hfrom, hto⟩ := dropCommon_spec (directoriesOf fromPath.toList) (stemOf toPath)
  rw [← dropCommon_snd_eq_nil] at hleft
  rcases List.eq_nil_or_concat (dropCommon (directoriesOf fromPath.toList) (stemOf toPath)).2 with hnil | ⟨front, last, hdown⟩
  · exact absurd hnil hleft
  rw [List.concat_eq_append] at hdown
  have hlast : common ++ front = directories ∧ [last] = [name] := by
    rw [hdown, hstem, ← List.append_assoc] at hto
    exact (List.append_inj' hto rfl).imp Eq.symm Eq.symm
  obtain rfl : last = name := by simpa using hlast.2
  have hnoDotDown : ∀ segment ∈ front ++ [last], segment.head? ≠ some '.' := fun segment hmem =>
    hnoDot segment (by rw [hto, hdown]; exact List.mem_append_right common hmem)
  have hnoDotEnding : ∀ segment ∈ front ++ [last ++ moduleImportStyle.ending], segment.head? ≠ some '.' := by
    intro segment hmem
    rcases List.mem_append.mp hmem with hmem | hmem
    · exact hnoDotDown segment (List.mem_append_left _ hmem)
    · rw [List.mem_singleton.mp hmem, List.head?_append_of_ne_nil _ hname]
      exact hnoDotDown last (List.mem_append_right _ (List.mem_singleton_self _))
  have htext : (fromPaths fromPath toPath moduleImportStyle).toList
      = ['/'].intercalate (frontOf (dropCommon (directoriesOf fromPath.toList) (stemOf toPath)).1
          ++ (front ++ [last ++ moduleImportStyle.ending])) := by
    rw [fromPaths, String.toList_ofList]
    show prefixedPathOf (relativePathOf (dropCommon (directoriesOf fromPath.toList) (stemOf toPath)).1
      (dropCommon (directoriesOf fromPath.toList) (stemOf toPath)).2) ++ _ = _
    rw [hdown, prefixedPathOf_eq hname hnoDotDown, ← List.append_assoc, intercalate_concat_append, List.append_assoc]
  refine ⟨?_, ?_⟩
  · rw [htext]
    exact isRelative_frontOf _ (by simp)
  · have hslash : ∀ segment ∈ frontOf (dropCommon (directoriesOf fromPath.toList) (stemOf toPath)).1
        ++ (front ++ [last ++ moduleImportStyle.ending]), '/' ∉ segment := by
      have hstemSlash : ∀ segment ∈ common ++ (front ++ [last]), '/' ∉ segment := by
        rw [← hdown, ← hto]
        exact fun segment hmem => not_mem_of_mem_splitOn hmem
      intro segment hmem
      rcases List.mem_append.mp hmem with hmem | hmem
      · rcases mem_frontOf hmem with rfl | rfl
        · decide
        · decide
      · rcases List.mem_append.mp hmem with hmem | hmem
        · exact hstemSlash segment (List.mem_append_right _ (List.mem_append_left _ hmem))
        · rw [List.mem_singleton.mp hmem, List.mem_append]
          rintro (hslash | hslash)
          · exact hstemSlash last (by simp) hslash
          · exact not_mem_ending moduleImportStyle hslash
    rw [htext, resolveFrom, List.splitOn_intercalate '/' hslash (by simp), List.foldl_append]
    have hup := foldl_frontOf common (dropCommon (directoriesOf fromPath.toList) (stemOf toPath)).1
    rw [← hfrom] at hup
    rw [hup, foldl_downwards common hnoDotEnding, ← List.append_assoc, ← intercalate_concat_append, hlast.1, ← hstem,
      stemOf, List.intercalate_splitOn]

/-! ## A target that is the directory of the file or above it -/

theorem map_upwards_cons (upward : List Char) (upwards : List (List Char)) :
    ((upward :: upwards).map fun _ => "..".toList) = (upwards.map fun _ => "..".toList) ++ ["..".toList] := by
  rw [List.map_const', List.map_const', List.length_cons, List.replicate_succ']

/-- Nothing but steps upwards is left, and the ending of the style becomes part of the last one. -/
theorem resolves_iff_of_front {fromPath toPath : String} (h : IsGeneratedPath toPath)
    (moduleImportStyle : DamlModuleImportStyle) (hfront : stemOf toPath <+: directoriesOf fromPath.toList) :
    Resolves fromPath toPath moduleImportStyle ↔
      moduleImportStyle = .tsNode ∧ (stemOf toPath).length + 2 ≤ (directoriesOf fromPath.toList).length := by
  obtain ⟨directories, name, hstem, hname, hnoDot⟩ := stemOf_eq h
  obtain ⟨common, hfrom, hto⟩ := dropCommon_spec (directoriesOf fromPath.toList) (stemOf toPath)
  rw [dropCommon_snd_eq_nil.mpr hfront, List.append_nil] at hto
  have htext : (fromPaths fromPath toPath moduleImportStyle).toList
      = prefixedPathOf (relativePathOf (dropCommon (directoriesOf fromPath.toList) (stemOf toPath)).1 [])
        ++ moduleImportStyle.ending := by
    rw [fromPaths, String.toList_ofList]
    show prefixedPathOf (relativePathOf (dropCommon (directoriesOf fromPath.toList) (stemOf toPath)).1
      (dropCommon (directoriesOf fromPath.toList) (stemOf toPath)).2) ++ _ = _
    rw [dropCommon_snd_eq_nil.mpr hfront]
  have hstemText : removeExtension toPath.toList = ['/'].intercalate common := by
    rw [← hto, stemOf, List.intercalate_splitOn]
  generalize (dropCommon (directoriesOf fromPath.toList) (stemOf toPath)).1 = upwards at hfrom htext
  have hcommon : common ≠ [] := by
    rw [← hto, hstem]
    simp
  rw [Resolves, htext, hstemText, hto, hfrom, List.length_append]
  have hshort : ∀ text : List Char, text = ".".toList ∨ text = "..".toList → ¬ IsRelative (text ++ moduleImportStyle.ending) := by
    rintro text (rfl | rfl)
    · cases moduleImportStyle with
      | esm => decide
      | tsNode => decide
    · cases moduleImportStyle with
      | esm => decide
      | tsNode => decide
  cases upwards with
  | nil => exact ⟨fun hresolves => absurd hresolves.1 (hshort _ (.inl rfl)), fun hlength => absurd hlength.2 (by simp)⟩
  | cons upward upwards =>
      cases upwards with
      | nil => exact ⟨fun hresolves => absurd hresolves.1 (hshort _ (.inr rfl)), fun hlength => absurd hlength.2 (by simp)⟩
      | cons second upwards =>
          have hpath : prefixedPathOf (relativePathOf (upward :: second :: upwards) [])
              = ['/'].intercalate ((upward :: second :: upwards).map fun _ => "..".toList) := by
            have hjoined : ['/'].intercalate ("..".toList :: (second :: upwards).map fun _ => "..".toList)
                = "..".toList ++ ['/'] ++ ['/'].intercalate ((second :: upwards).map fun _ => "..".toList) :=
              List.intercalate_cons_of_ne_nil (List.cons_ne_nil _ _)
            rw [relativePathOf, List.append_nil, List.map_cons, hjoined, if_neg (by simp), prefixedPathOf]
            exact if_pos rfl
          have hslash : ∀ ending : List Char, '/' ∉ ending → ∀ segment ∈
              ((second :: upwards).map fun _ => "..".toList) ++ ["..".toList ++ ending], '/' ∉ segment := by
            intro ending hending segment hmem
            rcases List.mem_append.mp hmem with hmem | hmem
            · obtain ⟨-, -, rfl⟩ := List.mem_map.mp hmem
              decide
            · rw [List.mem_singleton.mp hmem, List.mem_append]
              exact fun hor => hor.elim (by decide) hending
          rw [hpath, map_upwards_cons, intercalate_concat_append, resolveFrom,
            List.splitOn_intercalate '/' (hslash _ (not_mem_ending moduleImportStyle)) (by simp), List.foldl_append]
          have hup := foldl_upwards (common ++ [upward]) (second :: upwards) (second :: upwards) rfl
          rw [List.append_assoc, List.singleton_append] at hup
          rw [hup]
          cases moduleImportStyle with
          | esm =>
              refine ⟨fun hresolves => ?_, fun hstyle => absurd hstyle.1 (by decide)⟩
              have hlength := congrArg List.length hresolves.2
              rw [List.foldl_cons, List.foldl_nil, show resolveSegment (common ++ [upward]) ("..".toList ++ DamlModuleImportStyle.esm.ending)
                = common ++ [upward] ++ ["...js".toList] from rfl, intercalate_concat (by simp), intercalate_concat hcommon] at hlength
              simp [DamlModuleImportStyle.ending] at hlength
          | tsNode =>
              refine ⟨fun _ => ⟨rfl, by simp⟩, fun _ => ⟨?_, ?_⟩⟩
              · refine .inr ⟨['/'].intercalate ((upwards.map fun _ => "..".toList) ++ ["..".toList]), ?_⟩
                rw [List.map_cons, intercalate_append _ "..".toList (List.cons_ne_nil _ _)]
                rfl
              · show ['/'].intercalate (common ++ [upward]).dropLast = _
                rw [List.dropLast_concat]
                exact (List.append_nil _).symm

/-! ## Where specifiers resolve -/

theorem resolves_iff (fromPath toPath : String) (h : IsGeneratedPath toPath) (moduleImportStyle : DamlModuleImportStyle) :
    Resolves fromPath toPath moduleImportStyle ↔
      ¬ stemOf toPath <+: directoriesOf fromPath.toList ∨
        moduleImportStyle = .tsNode ∧ (stemOf toPath).length + 2 ≤ (directoriesOf fromPath.toList).length := by
  by_cases hfront : stemOf toPath <+: directoriesOf fromPath.toList
  · rw [resolves_iff_of_front h moduleImportStyle hfront]
    exact ⟨.inr, fun hor => hor.resolve_left (not_not.mpr hfront)⟩
  · exact ⟨fun _ => .inl hfront, fun _ => resolves_of_left h moduleImportStyle hfront⟩

theorem resolves_sibling :
    Resolves "main/a/thing.ts" "main/a/types.ts" .esm ↔
      ¬ stemOf "main/a/types.ts" <+: directoriesOf "main/a/thing.ts".toList ∨
        DamlModuleImportStyle.esm = .tsNode
          ∧ (stemOf "main/a/types.ts").length + 2 ≤ (directoriesOf "main/a/thing.ts".toList).length :=
  resolves_iff "main/a/thing.ts" "main/a/types.ts" ⟨by decide +kernel, by decide +kernel⟩ .esm

/-- A template of the module `A.Types` that refers to a type of the module `A`. -/
theorem directory_of_same_name :
    IsGeneratedPath "main/a/types/thing.ts" ∧ IsGeneratedPath "main/a/types.ts"
      ∧ fromPaths "main/a/types/thing.ts" "main/a/types.ts" .esm = "..js"
      ∧ ¬ Resolves "main/a/types/thing.ts" "main/a/types.ts" .esm :=
  ⟨⟨by decide +kernel, by decide +kernel⟩, ⟨by decide +kernel, by decide +kernel⟩, by decide +kernel,
    fun h => absurd h.1 (by decide +kernel)⟩

end CantonSdk.DamlInterface
