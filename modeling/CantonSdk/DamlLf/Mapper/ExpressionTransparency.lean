import CantonSdk.DamlLf.Mapper.TypeTransparency

/-!
# Expressions in other encodings

An expression is written out, or is an entry of the table that is referred to. Expressions that differ only so are mapped to
the same expression, but for where they stand in a source file: a reference may have a place of its own.
-/

set_option linter.all false

namespace CantonSdk.DamlLf

open CantonSdk.Base CantonSdk.DamlLf.Interpreter

/-! ## Expressions without their places -/

mutual

def DamlLfExpression.eraseLocations : DamlLfExpression → DamlLfExpression
  | .mk node _ => .mk node.eraseLocations none

def DamlLfNode.eraseLocations : DamlLfNode → DamlLfNode
  | .textLiteral value => .textLiteral value
  | .numericLiteral value => .numericLiteral value
  | .int64Literal value => .int64Literal value
  | .valueReference reference => .valueReference reference
  | .variableName name => .variableName name
  | .lambda parameters body => .lambda parameters body.eraseLocations
  | .application function arguments => .application function.eraseLocations (eraseAll arguments)
  | .letExpression bindings body => .letExpression (eraseValues bindings) body.eraseLocations
  | .recordConstruction fields => .recordConstruction (eraseValues fields)
  | .recordProjection fieldName record => .recordProjection fieldName record.eraseLocations
  | .recordUpdate fieldName record value => .recordUpdate fieldName record.eraseLocations value.eraseLocations
  | .throwExpression exception => .throwExpression exception.eraseLocations
  | .builtinConstructor constructor => .builtinConstructor constructor
  | .builtinFunction name => .builtinFunction name
  | .caseExpression scrutinee alternatives => .caseExpression scrutinee.eraseLocations (eraseBodies alternatives)
  | .variantConstruction constructorName argument => .variantConstruction constructorName argument.eraseLocations
  | .optionalConstruction value => .optionalConstruction (eraseOptional value)
  | .enumConstruction constructorName => .enumConstruction constructorName
  | .listConstruction front tail => .listConstruction (eraseAll front) (eraseOptional tail)
  | .updateExpression update => .updateExpression update.eraseLocations
  | .unsupported nodeKind => .unsupported nodeKind

def DamlLfUpdateExpression.eraseLocations : DamlLfUpdateExpression → DamlLfUpdateExpression
  | .pure expression => .pure expression.eraseLocations
  | .block bindings body => .block (eraseValues bindings) body.eraseLocations
  | .embedExpr expression => .embedExpr expression.eraseLocations
  | .tryCatch expression catchVariableName catchExpression =>
      .tryCatch expression.eraseLocations catchVariableName catchExpression.eraseLocations
  | .create templateId argument => .create templateId argument.eraseLocations
  | .createInterface interfaceId argument => .createInterface interfaceId argument.eraseLocations
  | .fetch templateId contractId => .fetch templateId contractId.eraseLocations
  | .fetchInterface interfaceId contractId => .fetchInterface interfaceId contractId.eraseLocations
  | .exercise templateId choiceName contractId argument =>
      .exercise templateId choiceName contractId.eraseLocations argument.eraseLocations
  | .exerciseInterface interfaceId choiceName contractId argument guardExpression =>
      .exerciseInterface interfaceId choiceName contractId.eraseLocations argument.eraseLocations
        (eraseOptional guardExpression)
  | .getTime => .getTime
  | .ledgerTimeLt expression => .ledgerTimeLt expression.eraseLocations

def eraseAll : List DamlLfExpression → List DamlLfExpression
  | [] => []
  | expression :: rest => expression.eraseLocations :: eraseAll rest

def eraseValues : List (String × DamlLfExpression) → List (String × DamlLfExpression)
  | [] => []
  | (name, value) :: rest => (name, value.eraseLocations) :: eraseValues rest

def eraseBodies : List (CasePattern × DamlLfExpression) → List (CasePattern × DamlLfExpression)
  | [] => []
  | (pattern, body) :: rest => (pattern, body.eraseLocations) :: eraseBodies rest

def eraseOptional : Option DamlLfExpression → Option DamlLfExpression
  | none => none
  | some expression => some expression.eraseLocations

end
/-- The expressions differ in their places only. -/
def Alike (expression expression' : DamlLfExpression) : Prop := expression.eraseLocations = expression'.eraseLocations

def AlikeNode (node node' : DamlLfNode) : Prop := node.eraseLocations = node'.eraseLocations

def AlikeUpdate (update update' : DamlLfUpdateExpression) : Prop := update.eraseLocations = update'.eraseLocations

theorem alike_withSourceLocation {expression expression' : DamlLfExpression} (h : Alike expression expression')
    (sourceLocation : Option ExpressionSourceLocation) : Alike (expression.withSourceLocation sourceLocation) expression' := by
  cases sourceLocation with
  | none => exact h
  | some sourceLocation =>
      obtain ⟨node, location⟩ := expression
      exact h

theorem alike_of_withSourceLocation {expression expression' : DamlLfExpression} (h : Alike expression expression')
    (sourceLocation : Option ExpressionSourceLocation) : Alike expression (expression'.withSourceLocation sourceLocation) :=
  (alike_withSourceLocation (Eq.symm h) sourceLocation).symm

theorem eraseAll_eq {expressions expressions' : List DamlLfExpression} (h : List.Forall₂ Alike expressions expressions') :
    eraseAll expressions = eraseAll expressions' := by
  induction h with
  | nil => rfl
  | cons hfirst _ ih => rw [eraseAll, eraseAll, ih, hfirst]

theorem eraseValues_eq {values values' : List (String × DamlLfExpression)}
    (h : List.Forall₂ (fun value value' => value.1 = value'.1 ∧ Alike value.2 value'.2) values values') :
    eraseValues values = eraseValues values' := by
  induction h with
  | nil => rfl
  | cons hfirst _ ih => rw [eraseValues, eraseValues, ih, hfirst.1, hfirst.2]

theorem eraseBodies_eq {bodies bodies' : List (CasePattern × DamlLfExpression)}
    (h : List.Forall₂ (fun body body' => body.1 = body'.1 ∧ Alike body.2 body'.2) bodies bodies') :
    eraseBodies bodies = eraseBodies bodies' := by
  induction h with
  | nil => rfl
  | cons hfirst _ ih => rw [eraseBodies, eraseBodies, ih, hfirst.1, hfirst.2]

/-! ## Related results -/

section Related

variable {α α' β β' : Type} {R : α → α' → Prop} {S : β → β' → Prop}

/-- Both computations succeed, with related results, or fail with the same message. -/
def Related (R : α → α' → Prop) : Mapping α → Mapping α' → Prop
  | .ok a, .ok a' => R a a'
  | .error (.failed message), .error (.failed message') => message = message'
  | _, _ => False

theorem Related.bind {x : Mapping α} {x' : Mapping α'} {f : α → Mapping β} {f' : α' → Mapping β'} (hx : Related R x x')
    (hf : ∀ a a', R a a' → Related S (f a) (f' a')) : Related S (x >>= f) (x' >>= f') := by
  cases x with
  | ok a =>
      cases x' with
      | ok a' => exact hf a a' hx
      | error stop => exact hx.elim
  | error stop =>
      cases x' with
      | ok a' => cases stop <;> exact hx.elim
      | error stop' => cases stop <;> cases stop' <;> exact hx

/-- What is done with the result on the left does not change what it is related to. -/
theorem Related.left {x : Mapping α} {x' : Mapping α'} {g : α → α} (hx : Related R x x') (hg : ∀ a a', R a a' → R (g a) a') :
    Related R (x >>= fun a => .ok (g a)) x' := by
  cases x with
  | ok a =>
      cases x' with
      | ok a' => exact hg a a' hx
      | error stop => exact hx.elim
  | error stop => exact hx

theorem Related.right {x : Mapping α} {x' : Mapping α'} {g : α' → α'} (hx : Related R x x') (hg : ∀ a a', R a a' → R a (g a')) :
    Related R x (x' >>= fun a => .ok (g a)) := by
  cases x' with
  | ok a' =>
      cases x with
      | ok a => exact hg a a' hx
      | error stop => cases stop <;> exact hx.elim
  | error stop => exact hx

theorem related_refl {x : Mapping α} (h : Ends x) : Related Eq x x := by
  cases x with
  | ok a => exact Eq.refl a
  | error stop =>
      cases stop with
      | failed message => exact Eq.refl message
      | gaveUp => exact absurd rfl h

theorem related_mapM {ι ι' : Type} {P : ι → ι' → Prop} {f : ι → Mapping α} {f' : ι' → Mapping α'} {entries : List ι}
    {entries' : List ι'} (hf : ∀ entry entry', P entry entry' → Related R (f entry) (f' entry'))
    (h : List.Forall₂ P entries entries') : Related (List.Forall₂ R) (entries.mapM f) (entries'.mapM f') := by
  induction h with
  | nil => exact List.Forall₂.nil
  | cons hfirst _ ih =>
      rw [List.mapM_cons, List.mapM_cons]
      exact (hf _ _ hfirst).bind fun _ _ hmapped => ih.bind fun _ _ hrest => List.Forall₂.cons hmapped hrest

end Related

/-! ## Expressions that are the same but for references -/

def Raw.ExprSum.hasNoParts : Raw.ExprSum → Bool
  | .varInternedStr _ | .val _ | .builtin _ | .builtinCon _ | .builtinLit _ | .enumCon _ | .nil | .optionalNone | .other _ => true
  | _ => false

def Raw.Update.hasNoParts : Raw.Update → Bool
  | .getTime | .other _ => true
  | _ => false

section Relation

variable (Same : Option Raw.Expr → Option Raw.Expr → Prop)

/-- Members of two lists whose names are equal and whose expressions are the same. -/
def SameMembers {ν : Type} (members members' : List (ν × Option Raw.Expr)) : Prop :=
  List.Forall₂ (fun member member' => member.1 = member'.1 ∧ Same member.2 member'.2) members members'

def SameAll (args args' : List Raw.Expr) : Prop := List.Forall₂ (fun item item' => Same (some item) (some item')) args args'

inductive UpdateStep : Raw.Update → Raw.Update → Prop
  | noParts {update : Raw.Update} (h : update.hasNoParts) : UpdateStep update update
  | pure {expr expr' : Option Raw.Expr} (hexpr : Same expr expr') : UpdateStep (.pure expr) (.pure expr')
  | block {bindings bindings' : List (Option Int × Option Raw.Expr)} {body body' : Option Raw.Expr}
      (hbindings : SameMembers Same bindings bindings') (hbody : Same body body') :
      UpdateStep (.block bindings body) (.block bindings' body')
  | create (template : Option Raw.TypeConId) {expr expr' : Option Raw.Expr} (hexpr : Same expr expr') :
      UpdateStep (.create template expr) (.create template expr')
  | exercise (template : Option Raw.TypeConId) (choice : Int) {cid cid' arg arg' : Option Raw.Expr} (hcid : Same cid cid')
      (harg : Same arg arg') : UpdateStep (.exercise template choice cid arg) (.exercise template choice cid' arg')
  | fetch (template : Option Raw.TypeConId) {cid cid' : Option Raw.Expr} (hcid : Same cid cid') :
      UpdateStep (.fetch template cid) (.fetch template cid')
  | embedExpr {body body' : Option Raw.Expr} (hbody : Same body body') : UpdateStep (.embedExpr body) (.embedExpr body')
  | createInterface (interface : Option Raw.TypeConId) {expr expr' : Option Raw.Expr} (hexpr : Same expr expr') :
      UpdateStep (.createInterface interface expr) (.createInterface interface expr')
  | exerciseInterface (interface : Option Raw.TypeConId) (choice : Int) {cid cid' arg arg' guard guard' : Option Raw.Expr}
      (hcid : Same cid cid') (harg : Same arg arg')
      (hguard : Option.Rel (fun expr expr' => Same (some expr) (some expr')) guard guard') :
      UpdateStep (.exerciseInterface interface choice cid arg guard) (.exerciseInterface interface choice cid' arg' guard')
  | fetchInterface (interface : Option Raw.TypeConId) {cid cid' : Option Raw.Expr} (hcid : Same cid cid') :
      UpdateStep (.fetchInterface interface cid) (.fetchInterface interface cid')
  | tryCatch (binder : Int) {tryExpr tryExpr' catchExpr catchExpr' : Option Raw.Expr} (htry : Same tryExpr tryExpr')
      (hcatch : Same catchExpr catchExpr') : UpdateStep (.tryCatch tryExpr binder catchExpr) (.tryCatch tryExpr' binder catchExpr')
  | ledgerTimeLt {time time' : Option Raw.Expr} (htime : Same time time') : UpdateStep (.ledgerTimeLt time) (.ledgerTimeLt time')

inductive SumStep : Raw.ExprSum → Raw.ExprSum → Prop
  | noParts {sum : Raw.ExprSum} (h : sum.hasNoParts) : SumStep sum sum
  | recCon {fields fields' : List (Int × Option Raw.Expr)} (hfields : SameMembers Same fields fields') :
      SumStep (.recCon fields) (.recCon fields')
  | recProj (field : Int) {record record' : Option Raw.Expr} (hrecord : Same record record') :
      SumStep (.recProj field record) (.recProj field record')
  | recUpd (field : Int) {record record' update update' : Option Raw.Expr} (hrecord : Same record record')
      (hupdate : Same update update') : SumStep (.recUpd field record update) (.recUpd field record' update')
  | variantCon (constructor : Int) {argument argument' : Option Raw.Expr} (hargument : Same argument argument') :
      SumStep (.variantCon constructor argument) (.variantCon constructor argument')
  | structCon {fields fields' : List (Int × Option Raw.Expr)} (hfields : SameMembers Same fields fields') :
      SumStep (.structCon fields) (.structCon fields')
  | structProj (field : Int) {struct struct' : Option Raw.Expr} (hstruct : Same struct struct') :
      SumStep (.structProj field struct) (.structProj field struct')
  | structUpd (field : Int) {struct struct' update update' : Option Raw.Expr} (hstruct : Same struct struct')
      (hupdate : Same update update') : SumStep (.structUpd field struct update) (.structUpd field struct' update')
  | app {function function' : Option Raw.Expr} {args args' : List Raw.Expr} (hfunction : Same function function')
      (hargs : SameAll Same args args') : SumStep (.app function args) (.app function' args')
  | tyApp {expr expr' : Option Raw.Expr} (hexpr : Same expr expr') : SumStep (.tyApp expr) (.tyApp expr')
  | abs (param : List Int) {body body' : Option Raw.Expr} (hbody : Same body body') : SumStep (.abs param body) (.abs param body')
  | tyAbs {body body' : Option Raw.Expr} (hbody : Same body body') : SumStep (.tyAbs body) (.tyAbs body')
  | case {scrut scrut' : Option Raw.Expr} {alts alts' : List (Raw.CaseAltSum × Option Raw.Expr)} (hscrut : Same scrut scrut')
      (halts : SameMembers Same alts alts') : SumStep (.case scrut alts) (.case scrut' alts')
  | let_ {bindings bindings' : List (Option Int × Option Raw.Expr)} {body body' : Option Raw.Expr}
      (hbindings : SameMembers Same bindings bindings') (hbody : Same body body') :
      SumStep (.let_ bindings body) (.let_ bindings' body')
  | cons {front front' : List Raw.Expr} {tail tail' : Option Raw.Expr} (hfront : SameAll Same front front')
      (htail : Same tail tail') : SumStep (.cons front tail) (.cons front' tail')
  | update {update update' : Raw.Update} (hupdate : UpdateStep Same update update') : SumStep (.update update) (.update update')
  | optionalSome {value value' : Option Raw.Expr} (hvalue : Same value value') :
      SumStep (.optionalSome value) (.optionalSome value')
  | throw {exception exception' : Option Raw.Expr} (hexception : Same exception exception') :
      SumStep (.throw exception) (.throw exception')

end Relation

section References

variable (tables : Raw.Tables) (packageId : String) (table table' : List Raw.Expr)

/-- The place of a reference names a module of the tables. -/
def HasPlace (location : Option Raw.Location) : Prop :=
  ∃ sourceLocation, mapExpressionSourceLocation tables packageId location = .ok sourceLocation

inductive ExpressionStep (Same : Option Raw.Expr → Option Raw.Expr → Prop) : Option Raw.Expr → Option Raw.Expr → Prop
  | none : ExpressionStep Same none none
  | node {sum sum' : Raw.ExprSum} (hsum : SumStep Same sum sum') (location : Option Raw.Location) :
      ExpressionStep Same (some (.mk sum location)) (some (.mk sum' location))
  | reference {index index' : Int} (hentry : Same (entryAt table index) (entryAt table' index')) (location : Option Raw.Location) :
      ExpressionStep Same (some (.mk (.internedExpr index) location)) (some (.mk (.internedExpr index') location))
  | referenceLeft {index : Int} {location : Option Raw.Location} (hlocation : HasPlace tables packageId location)
      {rawExpression' : Option Raw.Expr} (hentry : Same (entryAt table index) rawExpression') :
      ExpressionStep Same (some (.mk (.internedExpr index) location)) rawExpression'
  | referenceRight {index : Int} {location : Option Raw.Location} (hlocation : HasPlace tables packageId location)
      {rawExpression : Option Raw.Expr} (hentry : Same rawExpression (entryAt table' index)) :
      ExpressionStep Same rawExpression (some (.mk (.internedExpr index) location))

/-- Expressions that are the same to a depth, which references add to. -/
def SameExpression : Nat → Option Raw.Expr → Option Raw.Expr → Prop
  | 0 => fun _ _ => False
  | depth + 1 => ExpressionStep tables packageId table table' (SameExpression depth)

end References

/-! ## The same expressions are mapped alike -/

section Mapping

variable {tables : Raw.Tables} {packageId : String} {internedTypes : List Raw.LfType} {internedExprs : List Raw.Expr}
  {Same : Option Raw.Expr → Option Raw.Expr → Prop} {mapExpression mapExpression' : Option Raw.Expr → Mapping DamlLfExpression}

theorem related_mapNode_noParts {sum : Raw.ExprSum} (h : sum.hasNoParts) :
    Related AlikeNode (mapNode tables packageId mapExpression sum)
      (mapNode { tables with internedTypes := internedTypes, internedExprs := internedExprs } packageId mapExpression' sum) := by
  have hresolve : ∀ (index : Int) (node : String → DamlLfNode), Related AlikeNode
      (resolveInternedString tables (some index) >>= fun text => .ok (node text))
      (resolveInternedString tables (some index) >>= fun text => .ok (node text)) := by
    intro index node
    refine (related_refl (ends_resolveInternedString tables (some index))).bind ?_
    rintro text _ rfl
    exact Eq.refl (node text).eraseLocations
  cases sum with
  | varInternedStr index => exact hresolve index _
  | val value =>
      refine (related_refl (ends_mapValueReference packageId tables value)).bind ?_
      rintro reference _ rfl
      exact Eq.refl (DamlLfNode.valueReference reference)
  | builtin name => exact Eq.refl (DamlLfNode.builtinFunction (builtinFunctionText name))
  | builtinCon builtinCon => exact Eq.refl (DamlLfNode.builtinConstructor (mapBuiltinCon builtinCon))
  | builtinLit literal =>
      cases literal with
      | textInternedStr index => exact hresolve index _
      | numericInternedStr index => exact hresolve index _
      | int64 value => exact Eq.refl (DamlLfNode.int64Literal value)
      | timestamp value => exact Eq.refl (DamlLfNode.textLiteral value)
      | date value => exact Eq.refl (DamlLfNode.textLiteral (toString value))
      | other => exact Eq.refl (DamlLfNode.unsupported (some "builtinLit"))
  | enumCon index => exact hresolve index _
  | nil => exact Eq.refl (DamlLfNode.listConstruction [] none)
  | optionalNone => exact Eq.refl (DamlLfNode.optionalConstruction none)
  | other kind => exact Eq.refl (DamlLfNode.unsupported kind)
  | _ => cases h

section

variable (hparts : ∀ rawExpression rawExpression', Same rawExpression rawExpression' →
  Related Alike (mapExpression rawExpression) (mapExpression' rawExpression'))

include hparts

theorem related_mapExpressions {args args' : List Raw.Expr} (h : SameAll Same args args') :
    Related (List.Forall₂ Alike) (args.mapM fun item => mapExpression (some item))
      (args'.mapM fun item => mapExpression' (some item)) :=
  related_mapM (fun _ _ hsame => hparts _ _ hsame) h

theorem related_mapMembers {ν κ : Type} {lookup : ν → Mapping κ} (hlookup : ∀ name, Ends (lookup name))
    {members members' : List (ν × Option Raw.Expr)} (h : SameMembers Same members members') :
    Related (List.Forall₂ fun member member' => member.1 = member'.1 ∧ Alike member.2 member'.2)
      (members.mapM fun member => lookup member.1 >>= fun name => mapExpression member.2 >>= fun value => .ok (name, value))
      (members'.mapM fun member => lookup member.1 >>= fun name => mapExpression' member.2 >>= fun value => .ok (name, value)) := by
  refine related_mapM (fun member member' hsame => ?_) h
  rw [hsame.1]
  refine (related_refl (hlookup member'.1)).bind fun name name' hname => ?_
  exact (hparts _ _ hsame.2).bind fun value value' hvalue => ⟨hname, hvalue⟩

theorem related_mapOptionalExpression {guard guard' : Option Raw.Expr}
    (h : Option.Rel (fun expr expr' => Same (some expr) (some expr')) guard guard') :
    Related (fun expr expr' => eraseOptional expr = eraseOptional expr') (mapOptionalExpression mapExpression guard)
      (mapOptionalExpression mapExpression' guard') := by
  cases h with
  | none => exact Eq.refl none
  | some hsame =>
      refine (hparts _ _ hsame).bind fun expr expr' halike => ?_
      show eraseOptional (some expr) = eraseOptional (some expr')
      rw [eraseOptional, eraseOptional, halike]

theorem related_mapUpdateExpression {update update' : Raw.Update} (h : UpdateStep Same update update') :
    Related AlikeUpdate (mapUpdateExpression tables packageId mapExpression update)
      (mapUpdateExpression { tables with internedTypes := internedTypes, internedExprs := internedExprs } packageId
        mapExpression' update') := by
  have hbindings : ∀ {bindings bindings'}, SameMembers Same bindings bindings' → Related _ (mapBindings tables mapExpression bindings)
      (mapBindings { tables with internedTypes := internedTypes, internedExprs := internedExprs } mapExpression' bindings') :=
    fun hsame => related_mapMembers hparts (ends_resolveInternedString tables) hsame
  have htemplate := fun template => related_refl (ends_mapTemplateReference packageId tables template)
  cases h with
  | noParts h =>
      cases update with
      | getTime => exact Eq.refl DamlLfUpdateExpression.getTime
      | other kind => exact Eq.refl (DamlLfUpdateExpression.embedExpr (.mk (.unsupported _) none))
      | _ => cases h
  | pure hexpr => exact (hparts _ _ hexpr).bind fun _ _ halike => congrArg DamlLfUpdateExpression.pure halike
  | block hsame hbody =>
      refine (hbindings hsame).bind fun _ _ hvalues => (hparts _ _ hbody).bind fun _ _ halike => ?_
      exact congrArg₂ DamlLfUpdateExpression.block (eraseValues_eq hvalues) halike
  | create template hexpr =>
      refine (htemplate template).bind ?_
      rintro templateId _ rfl
      exact (hparts _ _ hexpr).bind fun _ _ halike => congrArg (DamlLfUpdateExpression.create templateId) halike
  | exercise template choice hcid harg =>
      refine (htemplate template).bind ?_
      rintro templateId _ rfl
      refine (related_refl (ends_resolveInternedString tables (some choice))).bind ?_
      rintro choiceName _ rfl
      refine (hparts _ _ hcid).bind fun _ _ hcontract => (hparts _ _ harg).bind fun _ _ hargument => ?_
      exact congrArg₂ (DamlLfUpdateExpression.exercise templateId choiceName) hcontract hargument
  | fetch template hcid =>
      refine (htemplate template).bind ?_
      rintro templateId _ rfl
      exact (hparts _ _ hcid).bind fun _ _ halike => congrArg (DamlLfUpdateExpression.fetch templateId) halike
  | embedExpr hbody => exact (hparts _ _ hbody).bind fun _ _ halike => congrArg DamlLfUpdateExpression.embedExpr halike
  | createInterface interface hexpr =>
      refine (htemplate interface).bind ?_
      rintro interfaceId _ rfl
      exact (hparts _ _ hexpr).bind fun _ _ halike => congrArg (DamlLfUpdateExpression.createInterface interfaceId) halike
  | exerciseInterface interface choice hcid harg hguard =>
      refine (htemplate interface).bind ?_
      rintro interfaceId _ rfl
      refine (related_refl (ends_resolveInternedString tables (some choice))).bind ?_
      rintro choiceName _ rfl
      refine (hparts _ _ hcid).bind fun contractId contractId' hcontract => ?_
      refine (hparts _ _ harg).bind fun argument argument' hargument => ?_
      refine (related_mapOptionalExpression hparts hguard).bind fun guard guard' hguard => ?_
      show DamlLfUpdateExpression.exerciseInterface interfaceId choiceName contractId.eraseLocations argument.eraseLocations
          (eraseOptional guard)
        = .exerciseInterface interfaceId choiceName contractId'.eraseLocations argument'.eraseLocations (eraseOptional guard')
      rw [hcontract, hargument, hguard]
  | fetchInterface interface hcid =>
      refine (htemplate interface).bind ?_
      rintro interfaceId _ rfl
      exact (hparts _ _ hcid).bind fun _ _ halike => congrArg (DamlLfUpdateExpression.fetchInterface interfaceId) halike
  | tryCatch binder htry hcatch =>
      refine (hparts _ _ htry).bind fun _ _ hbody => ?_
      refine (related_refl (ends_resolveInternedString tables (some binder))).bind ?_
      rintro catchVariableName _ rfl
      refine (hparts _ _ hcatch).bind fun _ _ hhandler => ?_
      exact congrArg₂ (fun expression catchExpression => DamlLfUpdateExpression.tryCatch expression catchVariableName catchExpression)
        hbody hhandler
  | ledgerTimeLt htime =>
      exact (hparts _ _ htime).bind fun _ _ halike => congrArg DamlLfUpdateExpression.ledgerTimeLt halike

/-- A field is looked up, and one part is mapped. -/
theorem related_named {name : Int} {value value' : Option Raw.Expr} (hsame : Same value value')
    {node : String → DamlLfExpression → DamlLfNode}
    (hnode : ∀ text {mapped mapped'}, Alike mapped mapped' → AlikeNode (node text mapped) (node text mapped')) :
    Related AlikeNode
      (resolveInternedString tables (some name) >>= fun text => mapExpression value >>= fun mapped => .ok (node text mapped))
      (resolveInternedString tables (some name) >>= fun text => mapExpression' value' >>= fun mapped => .ok (node text mapped)) := by
  refine (related_refl (ends_resolveInternedString tables (some name))).bind ?_
  rintro text _ rfl
  exact (hparts _ _ hsame).bind fun _ _ halike => hnode text halike

theorem related_recordUpdate {field : Int} {record record' value value' : Option Raw.Expr} (hrecord : Same record record')
    (hvalue : Same value value') :
    Related AlikeNode
      (resolveInternedString tables (some field) >>= fun fieldName => mapExpression record >>= fun record =>
        mapExpression value >>= fun value => .ok (DamlLfNode.recordUpdate fieldName record value))
      (resolveInternedString tables (some field) >>= fun fieldName => mapExpression' record' >>= fun record =>
        mapExpression' value' >>= fun value => .ok (DamlLfNode.recordUpdate fieldName record value)) := by
  refine (related_refl (ends_resolveInternedString tables (some field))).bind ?_
  rintro fieldName _ rfl
  refine (hparts _ _ hrecord).bind fun _ _ hrecord => (hparts _ _ hvalue).bind fun _ _ hvalue => ?_
  exact congrArg₂ (DamlLfNode.recordUpdate fieldName) hrecord hvalue

/-- The forms that become a node of their own are mapped alike when their parts are. -/
theorem related_mapNode {sum sum' : Raw.ExprSum} (h : SumStep Same sum sum') :
    Related AlikeNode (mapNode tables packageId mapExpression sum)
      (mapNode { tables with internedTypes := internedTypes, internedExprs := internedExprs } packageId mapExpression' sum') := by
  have hbindings : ∀ {bindings bindings'}, SameMembers Same bindings bindings' → Related _ (mapBindings tables mapExpression bindings)
      (mapBindings { tables with internedTypes := internedTypes, internedExprs := internedExprs } mapExpression' bindings') :=
    fun hsame => related_mapMembers hparts (ends_resolveInternedString tables) hsame
  have hfields : ∀ {fields fields'}, SameMembers Same fields fields' → Related _ (mapFields tables mapExpression fields)
      (mapFields { tables with internedTypes := internedTypes, internedExprs := internedExprs } mapExpression' fields') :=
    fun hsame => related_mapMembers hparts (fun name : Int => ends_resolveInternedString tables (some name)) hsame
  cases h with
  | noParts h => exact related_mapNode_noParts h
  | recCon hsame => exact (hfields hsame).bind fun _ _ hvalues => congrArg DamlLfNode.recordConstruction (eraseValues_eq hvalues)
  | recProj field hrecord => exact related_named hparts hrecord fun text _ _ halike => congrArg (DamlLfNode.recordProjection text) halike
  | recUpd field hrecord hupdate => exact related_recordUpdate hparts hrecord hupdate
  | variantCon constructor hargument =>
      exact related_named hparts hargument fun text _ _ halike => congrArg (DamlLfNode.variantConstruction text) halike
  | structCon hsame => exact (hfields hsame).bind fun _ _ hvalues => congrArg DamlLfNode.recordConstruction (eraseValues_eq hvalues)
  | structProj field hstruct =>
      exact related_named hparts hstruct fun text _ _ halike => congrArg (DamlLfNode.recordProjection text) halike
  | structUpd field hstruct hupdate => exact related_recordUpdate hparts hstruct hupdate
  | app hfunction hargs =>
      refine (hparts _ _ hfunction).bind fun _ _ hfunction => (related_mapExpressions hparts hargs).bind fun _ _ hargs => ?_
      exact congrArg₂ DamlLfNode.application hfunction (eraseAll_eq hargs)
  | tyApp hexpr => exact Eq.refl (DamlLfNode.unsupported none)
  | abs param hbody =>
      refine (related_refl (ends_mapM param fun _ => ends_resolveInternedString tables _)).bind ?_
      rintro parameters _ rfl
      exact (hparts _ _ hbody).bind fun _ _ halike => congrArg (DamlLfNode.lambda parameters) halike
  | tyAbs hbody => exact Eq.refl (DamlLfNode.unsupported none)
  | case hscrut halts =>
      refine (hparts _ _ hscrut).bind fun _ _ hscrutinee => ?_
      refine (related_mapMembers hparts (ends_mapCasePattern tables) halts).bind fun _ _ hbodies => ?_
      exact congrArg₂ DamlLfNode.caseExpression hscrutinee (eraseBodies_eq hbodies)
  | let_ hsame hbody =>
      refine (hbindings hsame).bind fun _ _ hvalues => (hparts _ _ hbody).bind fun _ _ halike => ?_
      exact congrArg₂ DamlLfNode.letExpression (eraseValues_eq hvalues) halike
  | cons hfront htail =>
      refine (related_mapExpressions hparts hfront).bind fun _ _ hfront => (hparts _ _ htail).bind fun tail tail' halike => ?_
      exact congrArg₂ (fun front tail => DamlLfNode.listConstruction front (some tail)) (eraseAll_eq hfront) halike
  | update hupdate =>
      exact (related_mapUpdateExpression hparts hupdate).bind fun _ _ halike => congrArg DamlLfNode.updateExpression halike
  | optionalSome hvalue =>
      exact (hparts _ _ hvalue).bind fun _ _ halike => congrArg (fun value => DamlLfNode.optionalConstruction (some value)) halike
  | throw hexception => exact (hparts _ _ hexception).bind fun _ _ halike => congrArg DamlLfNode.throwExpression halike

theorem related_mapExpressionWithoutSourceLocation {sum sum' : Raw.ExprSum} (h : SumStep Same sum sum') :
    Related Alike (mapExpressionWithoutSourceLocation tables packageId mapExpression sum)
      (mapExpressionWithoutSourceLocation { tables with internedTypes := internedTypes, internedExprs := internedExprs } packageId
        mapExpression' sum') := by
  have hnode : Related Alike (mapNode tables packageId mapExpression sum >>= fun node => .ok (.mk node none))
      (mapNode { tables with internedTypes := internedTypes, internedExprs := internedExprs } packageId mapExpression' sum'
        >>= fun node => .ok (.mk node none)) :=
    (related_mapNode hparts h).bind fun _ _ halike => congrArg (fun node => DamlLfExpression.mk node none) halike
  cases h with
  | noParts h =>
      cases sum with
      | varInternedStr index => exact hnode
      | val value => exact hnode
      | builtin name => exact hnode
      | builtinCon builtinCon => exact hnode
      | builtinLit literal => exact hnode
      | enumCon index => exact hnode
      | nil => exact hnode
      | optionalNone => exact hnode
      | other kind => exact hnode
      | _ => cases h
  | tyApp hexpr => exact hparts _ _ hexpr
  | tyAbs hbody => exact hparts _ _ hbody
  | _ => exact hnode

end

/-- Alike expressions stay so at the same place. -/
theorem related_placed {x x' : Mapping DamlLfExpression} (h : Related Alike x x') (location : Option Raw.Location) :
    Related Alike
      (x >>= fun expression => mapExpressionSourceLocation tables packageId location >>= fun sourceLocation =>
        .ok (expression.withSourceLocation sourceLocation))
      (x' >>= fun expression => mapExpressionSourceLocation tables packageId location >>= fun sourceLocation =>
        .ok (expression.withSourceLocation sourceLocation)) := by
  refine h.bind fun expression expression' halike => ?_
  refine (related_refl (ends_mapExpressionSourceLocation packageId tables location)).bind ?_
  rintro sourceLocation _ rfl
  exact alike_withSourceLocation (alike_of_withSourceLocation halike sourceLocation) sourceLocation

/-- Expressions in two encodings are mapped alike, or fail with the same message. -/
theorem mapExpression_same {tables tables' : Raw.Tables} (hnames : SameNames tables tables') {depth fuel fuel' : Nat}
    {rawExpression rawExpression' : Option Raw.Expr}
    (h : SameExpression tables packageId tables.internedExprs tables'.internedExprs depth rawExpression rawExpression')
    (hfuel : depth ≤ fuel) (hfuel' : depth ≤ fuel') :
    Related Alike (DamlLf.mapExpression tables packageId fuel rawExpression)
      (DamlLf.mapExpression tables' packageId fuel' rawExpression') := by
  obtain ⟨types, exprs, rfl⟩ := hnames
  induction depth generalizing fuel fuel' rawExpression rawExpression' with
  | zero => exact h.elim
  | succ depth ih =>
      obtain ⟨fuel, rfl⟩ : ∃ less, fuel = less + 1 := ⟨fuel - 1, by omega⟩
      obtain ⟨fuel', rfl⟩ : ∃ less, fuel' = less + 1 := ⟨fuel' - 1, by omega⟩
      cases h with
      | none => exact Eq.refl (DamlLfExpression.mk (.unsupported none) none)
      | node hsum location =>
          exact related_placed
            (related_mapExpressionWithoutSourceLocation (fun _ _ hsame => ih (by omega) (by omega) hsame) hsum) location
      | reference hentry location => exact related_placed (ih (by omega) (by omega) hentry) location
      | referenceLeft hlocation hentry =>
          rw [DamlLf.mapExpression, mapExpressionWith, hlocation.choose_spec]
          exact (ih (by omega) (by omega) hentry).left fun _ _ halike => alike_withSourceLocation halike _
      | referenceRight hlocation hentry =>
          have hplace : mapExpressionSourceLocation { tables with internedTypes := types, internedExprs := exprs } packageId _
            = .ok hlocation.choose := hlocation.choose_spec
          rw [DamlLf.mapExpression.eq_def _ _ (fuel' + 1)]
          simp only [mapExpressionWith, hplace]
          exact (ih (by omega) (by omega) hentry).right fun _ _ halike => alike_of_withSourceLocation halike _

end Mapping

end CantonSdk.DamlLf
