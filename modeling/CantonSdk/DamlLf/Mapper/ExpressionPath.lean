import CantonSdk.DamlLf.Mapper.MappedExpression
import Mathlib.Data.List.Nodup

/-!
# Paths to subexpressions

A path of indices leads from an expression to one of its parts, and source files are mapped to expressions by such
paths. Each part of a node has a name here, so that what a path leads to is told apart from an equal expression at
another place; the parts that a path can lead to are compared with those that the evaluator evaluates.
-/

set_option linter.all false

namespace CantonSdk.DamlLf

/-- The place of a part in its node. -/
inductive Part
  | body
  | function
  | argument (index : Nat)
  | bindingValue (index : Nat)
  | fieldValue (index : Nat)
  | record
  | value
  | exception
  | scrutinee
  | alternativeBody (index : Nat)
  | front (index : Nat)
  | tail
  | updateExpression
  | catchExpression
  | contractId
  | updateArgument
  | guardExpression
  deriving DecidableEq

/-- The entries of a list, each with the name of its place. -/
def numbered {α : Type} (part : Nat → Part) (entries : List α) : List (Part × α) :=
  ((List.range entries.length).map part).zip entries

/-- The children of the update of an expression. -/
def DamlLfUpdateExpression.childParts : DamlLfUpdateExpression → List (Part × DamlLfExpression)
  | .pure expression => [(.updateExpression, expression)]
  | .block bindings body => numbered .bindingValue (bindings.map Prod.snd) ++ [(.body, body)]
  | .embedExpr expression => [(.updateExpression, expression)]
  | .tryCatch expression _ _ => [(.updateExpression, expression)]
  | .create _ argument => [(.updateArgument, argument)]
  | .createInterface _ argument => [(.updateArgument, argument)]
  | .fetch _ contractId => [(.contractId, contractId)]
  | .fetchInterface _ contractId => [(.contractId, contractId)]
  | .exercise _ _ contractId argument => [(.contractId, contractId), (.updateArgument, argument)]
  | .exerciseInterface _ _ contractId argument _ => [(.contractId, contractId), (.updateArgument, argument)]
  | .getTime => []
  | .ledgerTimeLt expression => [(.updateExpression, expression)]

/-- The children in the order of `getDamlLfExpressionChildren`, with their places. -/
def DamlLfNode.childParts : DamlLfNode → List (Part × DamlLfExpression)
  | .lambda _ body => [(.body, body)]
  | .application function arguments => (.function, function) :: numbered .argument arguments
  | .letExpression bindings body => numbered .bindingValue (bindings.map Prod.snd) ++ [(.body, body)]
  | .recordConstruction fields => numbered .fieldValue (fields.map Prod.snd)
  | .recordProjection _ record => [(.record, record)]
  | .recordUpdate _ record value => [(.record, record), (.value, value)]
  | .caseExpression scrutinee alternatives =>
      (.scrutinee, scrutinee) :: numbered .alternativeBody (alternatives.map Prod.snd)
  | .variantConstruction _ argument => [(.argument 0, argument)]
  | .optionalConstruction (some value) => [(.value, value)]
  | .listConstruction front (some tail) => numbered .front front ++ [(.tail, tail)]
  | .listConstruction front none => numbered .front front
  | .updateExpression update => update.childParts
  | _ => []

def getDamlLfExpressionChildren (expression : DamlLfExpression) : List DamlLfExpression :=
  expression.node.childParts.map Prod.snd

/-- A path of integers; an index that is none leads nowhere, as a negative one does. -/
def getDamlLfExpressionAtPath (expression : DamlLfExpression) : List Int → Option DamlLfExpression
  | [] => some expression
  | childIndex :: path =>
      if childIndex < 0 then none
      else
        match (getDamlLfExpressionChildren expression)[childIndex.toNat]? with
        | none => none
        | some child => getDamlLfExpressionAtPath child path

/-- The places that a path passes through. -/
def placesOfPath (expression : DamlLfExpression) : List Int → Option (List Part)
  | [] => some []
  | childIndex :: path =>
      if childIndex < 0 then none
      else
        match expression.node.childParts[childIndex.toNat]? with
        | none => none
        | some (part, child) => (placesOfPath child path).map (part :: ·)

/-! ## What is evaluated -/

/-- The parts of an update that the evaluator evaluates. The guard of an exercise is not among them, and is counted when
it is asked for. -/
def DamlLfUpdateExpression.evaluatedParts (countsGuard : Bool) : DamlLfUpdateExpression → List (Part × DamlLfExpression)
  | .pure expression => [(.updateExpression, expression)]
  | .block bindings body => numbered .bindingValue (bindings.map Prod.snd) ++ [(.body, body)]
  | .embedExpr expression => [(.updateExpression, expression)]
  | .tryCatch expression _ catchExpression => [(.updateExpression, expression), (.catchExpression, catchExpression)]
  | .create _ argument => [(.updateArgument, argument)]
  | .createInterface _ _ => []
  | .fetch _ contractId => [(.contractId, contractId)]
  | .fetchInterface _ contractId => [(.contractId, contractId)]
  | .exercise _ _ contractId argument => [(.contractId, contractId), (.updateArgument, argument)]
  | .exerciseInterface _ _ contractId argument (some guardExpression) =>
      [(.contractId, contractId), (.updateArgument, argument)]
        ++ if countsGuard then [(.guardExpression, guardExpression)] else []
  | .exerciseInterface _ _ contractId argument none => [(.contractId, contractId), (.updateArgument, argument)]
  | .getTime => []
  | .ledgerTimeLt expression => [(.updateExpression, expression)]

/-- The parts of a node that the evaluator evaluates, for the node itself or when a function that it makes is applied. -/
def DamlLfNode.evaluatedParts (countsGuard : Bool) : DamlLfNode → List (Part × DamlLfExpression)
  | .lambda _ body => [(.body, body)]
  | .application function arguments => (.function, function) :: numbered .argument arguments
  | .letExpression bindings body => numbered .bindingValue (bindings.map Prod.snd) ++ [(.body, body)]
  | .recordConstruction fields => numbered .fieldValue (fields.map Prod.snd)
  | .recordProjection _ record => [(.record, record)]
  | .recordUpdate _ record value => [(.record, record), (.value, value)]
  | .throwExpression exception => [(.exception, exception)]
  | .caseExpression scrutinee alternatives =>
      (.scrutinee, scrutinee) :: numbered .alternativeBody (alternatives.map Prod.snd)
  | .variantConstruction _ argument => [(.argument 0, argument)]
  | .optionalConstruction (some value) => [(.value, value)]
  | .listConstruction front (some tail) => numbered .front front ++ [(.tail, tail)]
  | .listConstruction front none => numbered .front front
  | .updateExpression update => update.evaluatedParts countsGuard
  | _ => []

/-- What stands at the places, one inside the other, all of them evaluated. -/
inductive Occurs (countsGuard : Bool) : DamlLfExpression → List Part → DamlLfExpression → Prop
  | root (expression : DamlLfExpression) : Occurs countsGuard expression [] expression
  | step {expression child found : DamlLfExpression} {part : Part} {places : List Part}
      (hchild : (part, child) ∈ expression.node.evaluatedParts countsGuard) (hrest : Occurs countsGuard child places found) :
      Occurs countsGuard expression (part :: places) found

/-- Every occurrence is reached by exactly one path, and every path that leads to an expression leads to an occurrence. -/
structure AddressesAll (countsGuard : Bool) (root : DamlLfExpression) : Prop where
  reached : ∀ places found, Occurs countsGuard root places found →
    ∃! path, placesOfPath root path = some places ∧ getDamlLfExpressionAtPath root path = some found
  leads : ∀ path found, getDamlLfExpressionAtPath root path = some found →
    ∃ places, placesOfPath root path = some places ∧ Occurs countsGuard root places found

/-- The nodes of which a child is forgotten, or has one that is never evaluated. -/
def DamlLfNode.isMissed (countsGuard : Bool) : DamlLfNode → Bool
  | .throwExpression _ => true
  | .updateExpression (.tryCatch _ _ _) => true
  | .updateExpression (.createInterface _ _) => true
  | .updateExpression (.exerciseInterface _ _ _ _ (some _)) => countsGuard
  | _ => false

/-! ## Places tell the parts of a node apart -/

/-- The places of the parts. -/
def placesOf (parts : List (Part × DamlLfExpression)) : List Part := parts.map Prod.fst

theorem placesOf_numbered (part : Nat → Part) (entries : List DamlLfExpression) :
    placesOf (numbered part entries) = (List.range entries.length).map part :=
  List.map_fst_zip (by rw [List.length_map, List.length_range])

theorem nodup_numbered {part : Nat → Part} (hpart : Function.Injective part) (entries : List DamlLfExpression) :
    (placesOf (numbered part entries)).Nodup := by
  rw [placesOf_numbered]
  exact List.nodup_range.map hpart

theorem placesOf_append (parts others : List (Part × DamlLfExpression)) :
    placesOf (parts ++ others) = placesOf parts ++ placesOf others := List.map_append

theorem argument_injective : Function.Injective Part.argument := fun _ _ h => Part.argument.inj h

theorem bindingValue_injective : Function.Injective Part.bindingValue := fun _ _ h => Part.bindingValue.inj h

theorem fieldValue_injective : Function.Injective Part.fieldValue := fun _ _ h => Part.fieldValue.inj h

theorem alternativeBody_injective : Function.Injective Part.alternativeBody := fun _ _ h => Part.alternativeBody.inj h

theorem front_injective : Function.Injective Part.front := fun _ _ h => Part.front.inj h

/-- A numbered list of parts and one more part at a place with another name. -/
theorem nodup_numbered_append {part : Nat → Part} (hpart : Function.Injective part) (entries : List DamlLfExpression)
    (last : Part) (expression : DamlLfExpression) (hlast : ∀ index, part index ≠ last) :
    (placesOf (numbered part entries ++ [(last, expression)])).Nodup := by
  rw [placesOf_append, List.nodup_append]
  refine ⟨nodup_numbered hpart entries, List.nodup_singleton _, fun place hplace other hother heq => ?_⟩
  rw [placesOf_numbered] at hplace
  obtain ⟨index, -, rfl⟩ := List.mem_map.mp hplace
  exact hlast index (heq.trans (List.mem_singleton.mp hother))

theorem nodup_cons_numbered {part : Nat → Part} (hpart : Function.Injective part) (entries : List DamlLfExpression)
    (first : Part) (expression : DamlLfExpression) (hfirst : ∀ index, part index ≠ first) :
    (placesOf ((first, expression) :: numbered part entries)).Nodup := by
  refine List.nodup_cons.mpr ⟨fun hmem => ?_, nodup_numbered hpart entries⟩
  change first ∈ placesOf (numbered part entries) at hmem
  rw [placesOf_numbered] at hmem
  obtain ⟨index, -, heq⟩ := List.mem_map.mp hmem
  exact hfirst index heq

theorem nodup_evaluatedParts (countsGuard : Bool) (node : DamlLfNode) :
    (placesOf (node.evaluatedParts countsGuard)).Nodup := by
  cases node with
  | application function arguments => exact nodup_cons_numbered argument_injective _ _ _ (by simp)
  | letExpression bindings body => exact nodup_numbered_append bindingValue_injective _ _ _ (by simp)
  | recordConstruction fields => exact nodup_numbered fieldValue_injective _
  | caseExpression scrutinee alternatives => exact nodup_cons_numbered alternativeBody_injective _ _ _ (by simp)
  | listConstruction front tail =>
      cases tail with
      | none => exact nodup_numbered front_injective _
      | some tail => exact nodup_numbered_append front_injective _ _ _ (by simp)
  | optionalConstruction value => cases value <;> simp [DamlLfNode.evaluatedParts, placesOf]
  | updateExpression update =>
      cases update with
      | block bindings body => exact nodup_numbered_append bindingValue_injective _ _ _ (by simp)
      | exerciseInterface interfaceId choiceName contractId argument guardExpression =>
          cases guardExpression <;> cases countsGuard <;>
            simp [DamlLfNode.evaluatedParts, DamlLfUpdateExpression.evaluatedParts, placesOf]
      | _ => simp [DamlLfNode.evaluatedParts, DamlLfUpdateExpression.evaluatedParts, placesOf]
  | _ => simp [DamlLfNode.evaluatedParts, placesOf]

/-- Both lists of parts name the same parts, except at a node that is missed. -/
theorem childParts_eq {countsGuard : Bool} {node : DamlLfNode} (h : node.isMissed countsGuard = false) :
    node.childParts = node.evaluatedParts countsGuard := by
  cases node with
  | throwExpression exception => cases h
  | listConstruction front tail => cases tail <;> rfl
  | optionalConstruction value => cases value <;> rfl
  | updateExpression update =>
      cases update with
      | tryCatch expression catchVariableName catchExpression => cases h
      | createInterface interfaceId argument => cases h
      | exerciseInterface interfaceId choiceName contractId argument guardExpression =>
          cases guardExpression with
          | none => rfl
          | some guardExpression =>
              cases countsGuard with
              | false => rfl
              | true => cases h
      | _ => rfl
  | _ => rfl

theorem child_unique {parts : List (Part × DamlLfExpression)} (hnodup : (placesOf parts).Nodup) {part : Part}
    {child other : DamlLfExpression} (hchild : (part, child) ∈ parts) (hother : (part, other) ∈ parts) : other = child :=
  congrArg Prod.snd (List.inj_on_of_nodup_map hnodup hother hchild rfl)

/-- Where any part is evaluated, every child is a part that is evaluated. -/
theorem childParts_subset (countsGuard : Bool) (node : DamlLfNode) :
    node.childParts ⊆ node.evaluatedParts countsGuard ∨ node.evaluatedParts countsGuard = [] := by
  by_cases h : node.isMissed countsGuard = false
  · rw [childParts_eq h]
    exact .inl (List.Subset.refl _)
  · cases node with
    | throwExpression exception => exact .inl (List.nil_subset _)
    | updateExpression update =>
        cases update with
        | tryCatch expression catchVariableName catchExpression => exact .inl (List.subset_append_left [_] [_])
        | createInterface interfaceId argument => exact .inr rfl
        | exerciseInterface interfaceId choiceName contractId argument guardExpression =>
            cases guardExpression with
            | none => exact absurd rfl h
            | some guardExpression => exact .inl (List.subset_append_left [_, _] _)
        | _ => exact absurd rfl h
    | _ => exact absurd rfl h

/-- What is evaluated and named among the children is the child of that name. -/
theorem child_eq {countsGuard : Bool} {node : DamlLfNode} {part : Part} {child other : DamlLfExpression}
    (hevaluated : (part, child) ∈ node.evaluatedParts countsGuard) (hchild : (part, other) ∈ node.childParts) :
    other = child := by
  rcases childParts_subset countsGuard node with hsubset | hempty
  · exact child_unique (nodup_evaluatedParts countsGuard node) hevaluated (hsubset hchild)
  · rw [hempty] at hevaluated
    exact absurd hevaluated List.not_mem_nil

/-! ## One step of a path -/

/-- The child and its place that an index leads to. -/
def childAt (expression : DamlLfExpression) (childIndex : Int) : Option (Part × DamlLfExpression) :=
  if childIndex < 0 then none else expression.node.childParts[childIndex.toNat]?

theorem getDamlLfExpressionAtPath_cons (expression : DamlLfExpression) (childIndex : Int) (path : List Int) :
    getDamlLfExpressionAtPath expression (childIndex :: path)
      = (childAt expression childIndex).bind fun entry => getDamlLfExpressionAtPath entry.2 path := by
  rw [getDamlLfExpressionAtPath, childAt, getDamlLfExpressionChildren, List.getElem?_map]
  split
  · rfl
  · cases expression.node.childParts[childIndex.toNat]? with
    | none => rfl
    | some entry => rfl

theorem placesOfPath_cons (expression : DamlLfExpression) (childIndex : Int) (path : List Int) :
    placesOfPath expression (childIndex :: path)
      = (childAt expression childIndex).bind fun entry => (placesOfPath entry.2 path).map (entry.1 :: ·) := by
  rw [placesOfPath, childAt]
  split
  · rfl
  · cases expression.node.childParts[childIndex.toNat]? with
    | none => rfl
    | some entry => rfl

theorem mem_of_childAt {expression : DamlLfExpression} {childIndex : Int} {entry : Part × DamlLfExpression}
    (h : childAt expression childIndex = some entry) : entry ∈ expression.node.childParts := by
  rw [childAt] at h
  split at h
  · cases h
  · exact List.mem_of_getElem? h

theorem exists_childAt {expression : DamlLfExpression} {entry : Part × DamlLfExpression}
    (h : entry ∈ expression.node.childParts) : ∃ childIndex, childAt expression childIndex = some entry := by
  obtain ⟨index, hindex⟩ := List.mem_iff_getElem?.mp h
  refine ⟨index, ?_⟩
  rw [childAt, if_neg (by omega), Int.toNat_natCast, hindex]

/-- With names that tell the children apart, an index is determined by the name. -/
theorem childAt_injective {expression : DamlLfExpression} (hnodup : (placesOf expression.node.childParts).Nodup)
    {childIndex other : Int} {part : Part} {child found : DamlLfExpression}
    (hchild : childAt expression childIndex = some (part, child)) (hother : childAt expression other = some (part, found)) :
    childIndex = other := by
  rw [childAt] at hchild hother
  split at hchild
  · cases hchild
  · split at hother
    · cases hother
    · obtain ⟨hlt, hindex⟩ := List.getElem?_eq_some_iff.mp hchild
      obtain ⟨hlt', hindex'⟩ := List.getElem?_eq_some_iff.mp hother
      have hplace : childIndex.toNat < (placesOf expression.node.childParts).length := by simpa [placesOf] using hlt
      have hplace' : other.toNat < (placesOf expression.node.childParts).length := by simpa [placesOf] using hlt'
      have hplaces : (placesOf expression.node.childParts)[childIndex.toNat]
          = (placesOf expression.node.childParts)[other.toNat] := by
        simp [placesOf, hindex, hindex']
      have heq := (List.Nodup.getElem_inj_iff hnodup).mp hplaces
      omega

/-! ## What paths reach -/

variable {countsGuard : Bool} {root found : DamlLfExpression} {places : List Part} {part : Part}

/-- A path to a place inside an occurrence passes through a child of it with that name. -/
theorem mem_childParts_of_path (hoccurs : Occurs countsGuard root places found) {path : List Int}
    (hpath : placesOfPath root path = some (places ++ [part])) : part ∈ placesOf found.node.childParts := by
  induction hoccurs generalizing path with
  | root expression =>
      cases path with
      | nil => cases hpath
      | cons childIndex path =>
          rw [placesOfPath_cons, Option.bind_eq_some_iff] at hpath
          obtain ⟨entry, hentry, hrest⟩ := hpath
          obtain ⟨rest, -, heq⟩ := Option.map_eq_some_iff.mp hrest
          rw [← (List.cons.inj heq).1]
          exact List.mem_map_of_mem (mem_of_childAt hentry)
  | step hchild hrest ih =>
      cases path with
      | nil => cases hpath
      | cons childIndex path =>
          rw [placesOfPath_cons, Option.bind_eq_some_iff] at hpath
          obtain ⟨⟨first, child⟩, hentry, hpath⟩ := hpath
          obtain ⟨rest, hplaces, heq⟩ := Option.map_eq_some_iff.mp hpath
          obtain ⟨rfl, rfl⟩ := List.cons.inj heq
          obtain rfl := child_eq hchild (mem_of_childAt hentry)
          exact ih hplaces

/-- An occurrence inside another one is in a part of it that is evaluated. -/
theorem mem_evaluatedParts_of_occurs (hoccurs : Occurs countsGuard root places found) {inner : DamlLfExpression}
    (hinner : Occurs countsGuard root (places ++ [part]) inner) : part ∈ placesOf (found.node.evaluatedParts countsGuard) := by
  induction hoccurs with
  | root expression =>
      cases hinner with
      | step hchild hrest => exact List.mem_map_of_mem hchild
  | step hchild hrest ih =>
      cases hinner with
      | step hother hinner =>
          obtain rfl := child_unique (nodup_evaluatedParts _ _) hchild hother
          exact ih hinner

theorem Occurs.concat {child : DamlLfExpression} (hoccurs : Occurs countsGuard root places found)
    (hchild : (part, child) ∈ found.node.evaluatedParts countsGuard) : Occurs countsGuard root (places ++ [part]) child := by
  induction hoccurs with
  | root expression => exact .step hchild (.root child)
  | step hfirst hrest ih => exact .step hfirst (ih hchild)

/-- A path can be continued by the index of a child. -/
theorem path_concat {path : List Int} (hplaces : placesOfPath root path = some places)
    (hfound : getDamlLfExpressionAtPath root path = some found) {childIndex : Int} {child : DamlLfExpression}
    (hchild : childAt found childIndex = some (part, child)) :
    placesOfPath root (path ++ [childIndex]) = some (places ++ [part])
      ∧ getDamlLfExpressionAtPath root (path ++ [childIndex]) = some child := by
  induction path generalizing root places with
  | nil =>
      obtain rfl := Option.some.inj hfound
      obtain rfl := Option.some.inj hplaces
      rw [List.nil_append, placesOfPath_cons, getDamlLfExpressionAtPath_cons, hchild]
      exact ⟨rfl, rfl⟩
  | cons first path ih =>
      rw [placesOfPath_cons, Option.bind_eq_some_iff] at hplaces
      rw [getDamlLfExpressionAtPath_cons, Option.bind_eq_some_iff] at hfound
      obtain ⟨entry, hentry, hplaces⟩ := hplaces
      obtain ⟨other, hother, hfound⟩ := hfound
      obtain rfl := Option.some.inj (hentry.symm.trans hother)
      obtain ⟨rest, hrest, rfl⟩ := Option.map_eq_some_iff.mp hplaces
      obtain ⟨hplaces, hfound⟩ := ih hrest hfound
      rw [List.cons_append, placesOfPath_cons, getDamlLfExpressionAtPath_cons, hentry, Option.bind_some, Option.bind_some,
        hplaces]
      exact ⟨rfl, hfound⟩

/-! ## Which expressions are addressed -/

theorem not_missed_of_addressesAll (h : AddressesAll countsGuard root) (hoccurs : Occurs countsGuard root places found) :
    found.node.isMissed countsGuard = false := by
  have hforgotten : ∀ part child, (part, child) ∈ found.node.evaluatedParts countsGuard →
      part ∈ placesOf found.node.childParts := by
    intro part child hchild
    obtain ⟨path, ⟨hpath, -⟩, -⟩ := h.reached _ _ (hoccurs.concat hchild)
    exact mem_childParts_of_path hoccurs hpath
  have hneedless : ∀ entry ∈ found.node.childParts, entry.1 ∈ placesOf (found.node.evaluatedParts countsGuard) := by
    intro entry hentry
    obtain ⟨path, ⟨hpath, hfound⟩, -⟩ := h.reached _ _ hoccurs
    obtain ⟨childIndex, hchild⟩ := exists_childAt hentry
    obtain ⟨hpath', hfound'⟩ := path_concat hpath hfound hchild
    obtain ⟨others, hothers, hinner⟩ := h.leads _ _ hfound'
    rw [hpath'] at hothers
    rw [← Option.some.inj hothers] at hinner
    exact mem_evaluatedParts_of_occurs hoccurs hinner
  by_contra hmissed
  obtain ⟨node, sourceLocation⟩ := found
  change ¬ node.isMissed countsGuard = false at hmissed
  cases node with
  | throwExpression exception => exact absurd (hforgotten _ _ (List.mem_singleton_self _)) List.not_mem_nil
  | updateExpression update =>
      cases update with
      | tryCatch expression catchVariableName catchExpression =>
          have hcatch := hforgotten .catchExpression catchExpression (List.mem_cons_of_mem _ (List.mem_singleton_self _))
          exact absurd (List.mem_singleton.mp hcatch) (show Part.catchExpression ≠ .updateExpression by decide)
      | createInterface interfaceId argument =>
          exact absurd (hneedless _ (List.mem_singleton_self (Part.updateArgument, argument))) List.not_mem_nil
      | exerciseInterface interfaceId choiceName contractId argument guardExpression =>
          cases guardExpression with
          | none => exact hmissed rfl
          | some guardExpression =>
              cases countsGuard with
              | false => exact hmissed rfl
              | true =>
                  have hguard := hforgotten .guardExpression guardExpression
                    (List.mem_append_right [_, _] (List.mem_singleton_self _))
                  exact absurd hguard (show Part.guardExpression ∉ [Part.contractId, Part.updateArgument] by decide)
      | _ => exact hmissed rfl
  | _ => exact hmissed rfl

theorem leads_of_not_missed (h : ∀ places found, Occurs countsGuard root places found → found.node.isMissed countsGuard = false)
    {path : List Int} (hfound : getDamlLfExpressionAtPath root path = some found) :
    ∃ places, placesOfPath root path = some places ∧ Occurs countsGuard root places found := by
  induction path generalizing root with
  | nil => exact ⟨[], rfl, Option.some.inj hfound ▸ .root root⟩
  | cons childIndex path ih =>
      rw [getDamlLfExpressionAtPath_cons, Option.bind_eq_some_iff] at hfound
      obtain ⟨⟨part, child⟩, hentry, hfound⟩ := hfound
      have hchild := mem_of_childAt hentry
      rw [childParts_eq (h [] root (.root root))] at hchild
      obtain ⟨places, hplaces, hoccurs⟩ := ih (fun places found hoccurs => h _ _ (.step hchild hoccurs)) hfound
      refine ⟨part :: places, ?_, .step hchild hoccurs⟩
      rw [placesOfPath_cons, hentry, Option.bind_some, hplaces]
      rfl

theorem reached_of_not_missed (h : ∀ places found, Occurs countsGuard root places found → found.node.isMissed countsGuard = false)
    (hoccurs : Occurs countsGuard root places found) :
    ∃! path, placesOfPath root path = some places ∧ getDamlLfExpressionAtPath root path = some found := by
  induction hoccurs with
  | root expression =>
      refine ⟨[], ⟨rfl, rfl⟩, fun path hpath => ?_⟩
      cases path with
      | nil => rfl
      | cons childIndex path =>
          have hplaces := hpath.1
          rw [placesOfPath_cons, Option.bind_eq_some_iff] at hplaces
          obtain ⟨entry, -, hplaces⟩ := hplaces
          obtain ⟨rest, -, heq⟩ := Option.map_eq_some_iff.mp hplaces
          cases heq
  | @step expression child found part places hchild hrest ih =>
      have hsame := childParts_eq (h [] expression (.root expression))
      have hnodup := nodup_evaluatedParts countsGuard expression.node
      obtain ⟨path, ⟨hplaces, hfound⟩, hunique⟩ := ih fun places found hoccurs => h _ _ (.step hchild hoccurs)
      have hmem := hchild
      rw [← hsame] at hmem hnodup
      obtain ⟨childIndex, hindex⟩ := exists_childAt hmem
      refine ⟨childIndex :: path, ⟨?_, ?_⟩, fun other hother => ?_⟩
      · rw [placesOfPath_cons, hindex, Option.bind_some, hplaces]
        rfl
      · rw [getDamlLfExpressionAtPath_cons, hindex, Option.bind_some, hfound]
      · obtain ⟨hplaces', hfound'⟩ := hother
        cases other with
        | nil => cases hplaces'
        | cons otherIndex other =>
            rw [placesOfPath_cons, Option.bind_eq_some_iff] at hplaces'
            rw [getDamlLfExpressionAtPath_cons, Option.bind_eq_some_iff] at hfound'
            obtain ⟨⟨otherPart, otherChild⟩, hentry, hplaces'⟩ := hplaces'
            obtain ⟨entry, hentry', hfound'⟩ := hfound'
            obtain rfl := Option.some.inj (hentry.symm.trans hentry')
            obtain ⟨rest, hrest', heq⟩ := Option.map_eq_some_iff.mp hplaces'
            obtain ⟨rfl, rfl⟩ := List.cons.inj heq
            obtain rfl := child_eq hchild (mem_of_childAt hentry)
            rw [childAt_injective hnodup hentry hindex, hunique other ⟨hrest', hfound'⟩]

theorem addressesAll_iff (countsGuard : Bool) (root : DamlLfExpression) :
    AddressesAll countsGuard root ↔
      ∀ places found, Occurs countsGuard root places found → found.node.isMissed countsGuard = false :=
  ⟨fun h _ _ hoccurs => not_missed_of_addressesAll h hoccurs,
    fun h => ⟨fun _ _ hoccurs => reached_of_not_missed h hoccurs, fun _ _ hfound => leads_of_not_missed h hfound⟩⟩

/-- What is thrown has no path: the only path is the empty one. -/
theorem exception_without_path (countsGuard : Bool) :
    ¬ AddressesAll countsGuard (.mk (.throwExpression (.mk (.builtinConstructor .unit) none)) none) := by
  intro h
  obtain ⟨path, ⟨hplaces, -⟩, -⟩ := h.reached [.exception] _ (.step (List.mem_singleton_self _) (.root _))
  cases path with
  | nil => cases hplaces
  | cons childIndex path =>
      rw [placesOfPath_cons, Option.bind_eq_some_iff] at hplaces
      obtain ⟨entry, hentry, -⟩ := hplaces
      exact absurd (mem_of_childAt hentry) List.not_mem_nil

theorem exception_not_reached :
    ¬ AddressesAll false (.mk (.throwExpression (.mk (.builtinConstructor .unit) none)) none) ∧
      ¬ AddressesAll true (.mk (.throwExpression (.mk (.builtinConstructor .unit) none)) none) :=
  ⟨exception_without_path false, exception_without_path true⟩

end CantonSdk.DamlLf
