import CantonSdk.DamlLf.Mapper.ModelMapper

/-!
# The steps that the mapper makes

Mapping a package, a type or an expression is a job: names are looked up, which fails where an index is out of range, and
other jobs are called. The steps can be read off a package without mapping it, and the mapper ends as they do.
-/

set_option linter.all false

namespace CantonSdk.DamlLf

open CantonSdk.Base CantonSdk.Base.Traversal

inductive Job
  | package
  | type (rawType : Option Raw.LfType)
  | expression (rawExpression : Option Raw.Expr)

/-- A step that passes when the lookup succeeds. -/
def lookup {α : Type} (x : Mapping α) : Step Job := .check (Traversal.statusOf x = .done)

section Steps

variable (packageId : String) (tables : Raw.Tables)

def callTypes (args : List Raw.LfType) : List (Step Job) := args.flatMap fun item => [.call (.type (some item))]

/-- The scale of a `Numeric` is looked for in its first argument, also when there is none. -/
def stepsOfType : Option Raw.LfType → List (Step Job)
  | some (.internedType index) => if 0 ≤ index then [.call (.type (entryAt tables.internedTypes index))] else []
  | some (.tapp lhs rhs) => [.call (.type lhs), .call (.type rhs)]
  | some (.forall _ body) => [.call (.type body)]
  | some (.var _ args) => callTypes args
  | some (.con tycon args) => lookup (mapTypeConReference tables packageId tycon) :: callTypes args
  | some (.builtin builtin args) =>
      if mapBuiltinType builtin = .numeric then .call (.type args.head?) :: callTypes args.tail else callTypes args
  | _ => []

def stepsOfNamed (nameInternedStr : Option Int) (rawValue : Option Raw.Expr) : List (Step Job) :=
  [lookup (resolveInternedString tables nameInternedStr), .call (.expression rawValue)]

def stepsOfFields (fields : List (Int × Option Raw.Expr)) : List (Step Job) :=
  fields.flatMap fun field => stepsOfNamed tables (some field.1) field.2

def stepsOfBindings (bindings : List (Option Int × Option Raw.Expr)) : List (Step Job) :=
  bindings.flatMap fun binding => stepsOfNamed tables binding.1 binding.2

def callExpressions (args : List Raw.Expr) : List (Step Job) := args.flatMap fun item => [.call (.expression (some item))]

def callOptional : Option Raw.Expr → List (Step Job)
  | none => []
  | some rawExpression => [.call (.expression (some rawExpression))]

def stepsOfUpdate : Raw.Update → List (Step Job)
  | .pure expr | .embedExpr expr | .ledgerTimeLt expr => [.call (.expression expr)]
  | .block bindings body => stepsOfBindings tables bindings ++ [.call (.expression body)]
  | .tryCatch tryExpr varInternedStr catchExpr =>
      [.call (.expression tryExpr), lookup (resolveInternedString tables (some varInternedStr)),
        .call (.expression catchExpr)]
  | .create reference expr | .createInterface reference expr | .fetch reference expr | .fetchInterface reference expr =>
      [lookup (mapTemplateReference tables packageId reference), .call (.expression expr)]
  | .exercise template choiceInternedStr cid arg =>
      [lookup (mapTemplateReference tables packageId template),
        lookup (resolveInternedString tables (some choiceInternedStr)), .call (.expression cid), .call (.expression arg)]
  | .exerciseInterface interface choiceInternedStr cid arg guard =>
      [lookup (mapTemplateReference tables packageId interface),
        lookup (resolveInternedString tables (some choiceInternedStr)), .call (.expression cid), .call (.expression arg)]
        ++ callOptional guard
  | .getTime | .other _ => []

def stepsOfSum : Raw.ExprSum → List (Step Job)
  | .varInternedStr index => [lookup (resolveInternedString tables (some index))]
  | .builtinLit literal => [lookup (mapBuiltinLit tables literal)]
  | .val value => [lookup (mapValueReference tables packageId value)]
  | .abs param body =>
      [lookup (param.mapM fun parameter => resolveInternedString tables (some parameter)), .call (.expression body)]
  | .app function args => .call (.expression function) :: callExpressions args
  | .recCon fields | .structCon fields => stepsOfFields tables fields
  | .recProj nameInternedStr value | .structProj nameInternedStr value | .variantCon nameInternedStr value =>
      stepsOfNamed tables (some nameInternedStr) value
  | .recUpd fieldInternedStr record update | .structUpd fieldInternedStr record update =>
      [lookup (resolveInternedString tables (some fieldInternedStr)), .call (.expression record),
        .call (.expression update)]
  | .optionalSome expr | .tyApp expr | .tyAbs expr | .throw expr => [.call (.expression expr)]
  | .update update => stepsOfUpdate packageId tables update
  | .enumCon enumConInternedStr => [lookup (resolveInternedString tables (some enumConInternedStr))]
  | .cons front tail => callExpressions front ++ [.call (.expression tail)]
  | .case scrut alts =>
      .call (.expression scrut) ::
        alts.flatMap fun alternative => [lookup (mapCasePattern tables alternative.1), .call (.expression alternative.2)]
  | .let_ bindings body => stepsOfBindings tables bindings ++ [.call (.expression body)]
  | .internedExpr index => [.call (.expression (entryAt tables.internedExprs index))]
  | .builtinCon _ | .builtin _ | .optionalNone | .nil | .other _ => []

def stepsOfExpression : Option Raw.Expr → List (Step Job)
  | none => []
  | some (.mk sum location) => stepsOfSum packageId tables sum ++ [lookup (mapExpressionSourceLocation tables packageId location)]

def stepsOfField (nameInternedStr : Int) (rawType : Option Raw.LfType) : List (Step Job) :=
  [lookup (resolveInternedString tables (some nameInternedStr)), .call (.type rawType)]

def isDefinition : Raw.DataCons → Bool
  | .other => false
  | _ => true

def stepsOfDefinition : Raw.DataCons → List (Step Job)
  | .record fields | .variant fields => fields.flatMap fun item => stepsOfField tables item.1 item.2
  | .enum constructorsInternedStr =>
      [lookup (constructorsInternedStr.mapM fun item => resolveInternedString tables (some item))]
  | .other => []

/-- The name of a data type is looked up only when it is defined by one of the known forms. -/
def stepsOfDataType (rawDataType : Raw.DefDataType) : List (Step Job) :=
  stepsOfDefinition tables rawDataType.dataCons
    ++ if isDefinition rawDataType.dataCons then [lookup (resolveInternedDottedName tables (some rawDataType.nameInternedDname))]
      else []

def stepsOfValue (rawValue : Raw.DefValue) : List (Step Job) :=
  [lookup (resolveInternedDottedName tables (rawValue.nameWithType.map (·.1))),
    .call (.type (rawValue.nameWithType.bind (·.2))), .call (.expression rawValue.expr)]

def stepsOfChoiceParameter : Option (Int × Option Raw.LfType) → List (Step Job)
  | none => [.check false]
  | some (varInternedStr, rawType) => stepsOfField tables varInternedStr rawType

def stepsOfChoice (rawChoice : Raw.TemplateChoice) : List (Step Job) :=
  [lookup (resolveInternedString tables (some rawChoice.nameInternedStr)),
    lookup (resolveInternedString tables (some rawChoice.selfBinderInternedStr))]
    ++ (stepsOfChoiceParameter tables rawChoice.argBinder ++ .call (.type rawChoice.retType) :: callOptional rawChoice.update)

/-- A data type of the module has the name of the template. -/
def hasDataType (dataTypes : List Raw.DefDataType) (rawTemplate : Raw.DefTemplate) : Bool :=
  dataTypes.any fun rawDataType =>
    isDefinition rawDataType.dataCons && resolveInternedDottedName tables (some rawDataType.nameInternedDname)
        = resolveInternedDottedName tables (some rawTemplate.tyconInternedDname)

def stepsOfTemplate (dataTypes : List Raw.DefDataType) (rawTemplate : Raw.DefTemplate) : List (Step Job) :=
  [lookup (resolveInternedDottedName tables (some rawTemplate.tyconInternedDname)),
    .check (hasDataType tables dataTypes rawTemplate), lookup (resolveInternedString tables (some rawTemplate.paramInternedStr))]
    ++ rawTemplate.choices.flatMap (stepsOfChoice tables)

def stepsOfModule (rawModule : Raw.Module) : List (Step Job) :=
  lookup (resolveInternedDottedName tables (some rawModule.nameInternedDname)) ::
    (rawModule.dataTypes.flatMap (stepsOfDataType tables) ++ (rawModule.values.flatMap (stepsOfValue tables)
      ++ rawModule.templates.flatMap (stepsOfTemplate tables rawModule.dataTypes)))

end Steps

def stepsOfPackage (rawPackage : Raw.Package) : List (Step Job) :=
  lookup (resolveInternedString rawPackage.toTables (rawPackage.metadata.map (·.1))) ::
    lookup (resolveInternedString rawPackage.toTables (rawPackage.metadata.map (·.2))) ::
      rawPackage.modules.flatMap (stepsOfModule rawPackage.toTables)

/-- What each job does, in order. -/
def steps (packageId : String) (rawPackage : Raw.Package) : Job → List (Step Job)
  | .package => stepsOfPackage rawPackage
  | .type rawType => stepsOfType packageId rawPackage.toTables rawType
  | .expression rawExpression => stepsOfExpression packageId rawPackage.toTables rawExpression

/-! ## Lookups -/

section Lookups

variable {α β : Type} {x : Mapping α}

/-- The computation follows no reference without end. -/
def Ends (x : Mapping α) : Prop := x ≠ .error .gaveUp

theorem ends_ok {a : α} : Ends (.ok a : Mapping α) := by
  intro h
  cases h

theorem ends_decodeException {message : String} : Ends (decodeException message : Mapping α) := by
  intro h
  cases h

theorem Ends.bind {f : α → Mapping β} (hx : Ends x) (hf : ∀ a, Ends (f a)) : Ends (x >>= f) := by
  cases x with
  | ok a => exact hf a
  | error stop =>
      intro h
      cases h
      exact hx rfl

theorem ends_mapM {ι : Type} {f : ι → Mapping β} (entries : List ι) (h : ∀ entry, Ends (f entry)) : Ends (entries.mapM f) := by
  induction entries with
  | nil => exact ends_ok
  | cons entry rest ih =>
      rw [List.mapM_cons]
      exact (h entry).bind fun _ => ih.bind fun _ => ends_ok

variable (packageId : String) (tables : Raw.Tables)

theorem ends_resolveInternedString (index : Option Int) : Ends (resolveInternedString tables index) := by
  rw [resolveInternedString]
  split
  · exact ends_decodeException
  · exact ends_ok

theorem ends_resolveInternedDottedName (index : Option Int) : Ends (resolveInternedDottedName tables index) := by
  rw [resolveInternedDottedName]
  split
  · exact ends_decodeException
  · exact (ends_mapM _ fun _ => ends_resolveInternedString tables _).bind fun _ => ends_ok

theorem ends_resolvePackageId (rawPackageId : Option Raw.SelfOrImportedPackageId) :
    Ends (resolvePackageId tables packageId rawPackageId) := by
  cases rawPackageId with
  | none => exact ends_ok
  | some rawPackageId =>
      cases rawPackageId with
      | importedPackageIdInternedStr index => exact ends_resolveInternedString tables _
      | packageImportId index =>
          rw [resolvePackageId, resolveImportedPackageId]
          split
          · exact ends_decodeException
          · exact ends_ok
      | selfPackageId => exact ends_ok
      | unset => exact ends_ok

theorem ends_mapTypeConReference (rawTypeConId : Option Raw.TypeConId) :
    Ends (mapTypeConReference tables packageId rawTypeConId) := by
  rw [mapTypeConReference.eq_def]
  split
  · exact ends_decodeException
  · split
    · exact ends_decodeException
    · refine (ends_resolvePackageId packageId tables _).bind fun _ => ?_
      exact (ends_resolveInternedDottedName tables _).bind fun _ => (ends_resolveInternedDottedName tables _).bind fun _ => ends_ok

theorem ends_mapTemplateReference (rawTypeConId : Option Raw.TypeConId) :
    Ends (mapTemplateReference tables packageId rawTypeConId) :=
  (ends_mapTypeConReference packageId tables rawTypeConId).bind fun _ => ends_ok

theorem ends_mapValueReference (value : Raw.ValueId) : Ends (mapValueReference tables packageId value) := by
  refine (ends_resolvePackageId packageId tables _).bind fun _ => ?_
  exact (ends_resolveInternedDottedName tables _).bind fun _ => (ends_resolveInternedDottedName tables _).bind fun _ => ends_ok

theorem ends_mapExpressionSourceLocation (location : Option Raw.Location) :
    Ends (mapExpressionSourceLocation tables packageId location) := by
  rw [mapExpressionSourceLocation.eq_def]
  split
  · exact ends_ok
  · exact (ends_resolvePackageId packageId tables _).bind fun _ => (ends_resolveInternedDottedName tables _).bind fun _ => ends_ok
  · exact ends_ok

theorem ends_mapBuiltinLit (literal : Raw.BuiltinLit) : Ends (mapBuiltinLit tables literal) := by
  cases literal with
  | textInternedStr index => exact (ends_resolveInternedString tables _).bind fun _ => ends_ok
  | numericInternedStr index => exact (ends_resolveInternedString tables _).bind fun _ => ends_ok
  | int64 value => exact ends_ok
  | timestamp value => exact ends_ok
  | date value => exact ends_ok
  | other => exact ends_ok

theorem ends_mapCasePattern (sum : Raw.CaseAltSum) : Ends (mapCasePattern tables sum) := by
  cases sum with
  | variant constructor binder =>
      exact (ends_resolveInternedString tables _).bind fun _ => (ends_resolveInternedString tables _).bind fun _ => ends_ok
  | cons head tail =>
      exact (ends_resolveInternedString tables _).bind fun _ => (ends_resolveInternedString tables _).bind fun _ => ends_ok
  | optionalSome binder => exact (ends_resolveInternedString tables _).bind fun _ => ends_ok
  | enum constructor => exact (ends_resolveInternedString tables _).bind fun _ => ends_ok
  | default => exact ends_ok
  | builtinCon builtinCon => exact ends_ok
  | nil => exact ends_ok
  | optionalNone => exact ends_ok

theorem makes_lookup {status : Job → Status} (hx : Ends x) : Makes status x [lookup x] := by
  refine makes_check of_decide_eq_true fun hfails => ?_
  have hdone := of_decide_eq_false hfails
  cases x with
  | ok a => exact absurd rfl hdone
  | error stop =>
      cases stop with
      | failed message => rfl
      | gaveUp => exact absurd rfl hx

end Lookups

/-! ## The mapper ends as its steps do -/

section MakesSteps

variable (packageId : String) (tables : Raw.Tables) {status : Job → Status}

section Types

variable {readScale : Option Raw.LfType → Mapping (Option Nat)} {mapType : Option Raw.LfType → Mapping MappedType}

/-- Reading a scale follows the references that mapping the type follows. -/
structure ScaleAgrees (status : Job → Status) (readScale : Option Raw.LfType → Mapping (Option Nat)) : Prop where
  gaveUp : ∀ rawType stop, readScale rawType = .error stop → stop = .gaveUp ∧ status (.type rawType) = .gaveUp
  found : ∀ rawType scale, readScale rawType = .ok (some scale) → status (.type rawType) = .done
  missing : ∀ scale, readScale none = .ok scale → status (.type none) = .done

theorem statusOf_eq_gaveUp {α : Type} {x : Mapping α} {stop : Stop String} (hx : x = .error stop) (hstop : stop = .gaveUp) :
    Traversal.statusOf x = .gaveUp := by rw [hx, hstop]; rfl

theorem runSteps_call_gaveUp {job : Job} {rest : List (Step Job)} (h : status job = .gaveUp) :
    runSteps status (.call job :: rest) = .gaveUp := by rw [runSteps, h]; rfl

theorem runSteps_call_done {job : Job} {rest : List (Step Job)} (h : status job = .done) :
    runSteps status (.call job :: rest) = runSteps status rest := by rw [runSteps, h]; rfl

section

variable (htype : ∀ rawType, Traversal.statusOf (mapType rawType) = status (.type rawType))

include htype

theorem makes_mapTypes (args : List Raw.LfType) :
    Makes status (args.mapM fun item => mapType (some item)) (callTypes args) :=
  makes_mapM fun item _ => makes_call (htype (some item))

variable (hscale : ScaleAgrees status readScale)

include hscale

theorem makes_applyType (rhs : Option Raw.LfType) (lhs : MappedType) :
    Makes status (numericScaleFor readScale lhs.builtinType rhs >>= applyType mapType rhs lhs) [.call (.type rhs)] := by
  have hargument : Makes status (applyType mapType rhs lhs none) [.call (.type rhs)] := (makes_call (htype rhs)).map _
  rw [numericScaleFor]
  split
  · cases hread : readScale rhs with
    | error stop =>
        obtain ⟨hstop, hgaveUp⟩ := hscale.gaveUp rhs stop hread
        rw [Makes, runSteps_call_gaveUp hgaveUp]
        exact statusOf_eq_gaveUp rfl hstop
    | ok scale =>
        cases scale with
        | none => exact hargument
        | some scale =>
            rw [Makes, runSteps_call_done (hscale.found rhs scale hread)]
            rfl
  · exact hargument

theorem makes_builtinArguments (builtinType : DamlLfBuiltinType) (args : List Raw.LfType) :
    Makes status (numericScaleFor readScale builtinType args.head? >>= fun numericScale =>
        (args.drop (if numericScale.isNone then 0 else 1)).mapM (fun item => mapType (some item)) >>= fun typeArguments =>
          .ok (MappedType.mk builtinType numericScale none none none typeArguments))
      (if builtinType = .numeric then .call (.type args.head?) :: callTypes args.tail else callTypes args) := by
  rw [numericScaleFor]
  split
  · cases hread : readScale args.head? with
    | error stop =>
        obtain ⟨hstop, hgaveUp⟩ := hscale.gaveUp _ stop hread
        rw [Makes, runSteps_call_gaveUp hgaveUp]
        exact statusOf_eq_gaveUp rfl hstop
    | ok scale =>
        cases scale with
        | some scale =>
            rw [Makes, runSteps_call_done (hscale.found _ scale hread)]
            cases args with
            | nil => exact makes_ok
            | cons first rest => exact (makes_mapTypes htype rest).map _
        | none =>
            cases args with
            | nil =>
                have hdone : status (.type ([] : List Raw.LfType).head?) = .done := hscale.missing none hread
                rw [Makes, runSteps_call_done hdone]
                rfl
            | cons first rest => exact (makes_mapTypes htype (first :: rest)).map _
  · exact (makes_mapTypes htype args).map _

theorem makes_mapTypeWith (rawType : Option Raw.LfType) :
    Makes status (mapTypeWith tables packageId readScale mapType rawType) (stepsOfType packageId tables rawType) := by
  cases rawType with
  | none => exact makes_ok
  | some rawType =>
      cases rawType with
      | var varInternedStr args => exact (makes_mapTypes htype args).map _
      | con tycon args =>
          exact (makes_lookup (ends_mapTypeConReference packageId tables tycon)).bind fun _ _ => (makes_mapTypes htype args).map _
      | builtin builtin args => exact makes_builtinArguments htype hscale (mapBuiltinType builtin) args
      | «forall» vars body => exact (makes_call (htype body)).map _
      | nat nat => exact makes_ok
      | internedType index =>
          rw [mapTypeWith, stepsOfType]
          split
          · exact makes_call (htype _)
          · exact makes_ok
      | tapp lhs rhs => exact (makes_call (htype lhs)).bind fun mapped _ => makes_applyType htype hscale rhs mapped
      | other => exact makes_ok

end

end Types

section Expressions

variable {mapExpression : Option Raw.Expr → Mapping DamlLfExpression}
  (hexpression : ∀ rawExpression, Traversal.statusOf (mapExpression rawExpression) = status (.expression rawExpression))

include hexpression

theorem makes_mapNamedExpression (nameInternedStr : Option Int) (rawValue : Option Raw.Expr) :
    Makes status (mapNamedExpression tables mapExpression nameInternedStr rawValue) (stepsOfNamed tables nameInternedStr rawValue) :=
  (makes_lookup (ends_resolveInternedString tables nameInternedStr)).bind fun _ _ => (makes_call (hexpression rawValue)).map _

theorem makes_mapFields (fields : List (Int × Option Raw.Expr)) :
    Makes status (mapFields tables mapExpression fields) (stepsOfFields tables fields) :=
  makes_mapM fun field _ => makes_mapNamedExpression tables hexpression (some field.1) field.2

theorem makes_mapBindings (bindings : List (Option Int × Option Raw.Expr)) :
    Makes status (mapBindings tables mapExpression bindings) (stepsOfBindings tables bindings) :=
  makes_mapM fun binding _ => makes_mapNamedExpression tables hexpression binding.1 binding.2

theorem makes_mapExpressions (args : List Raw.Expr) :
    Makes status (args.mapM fun item => mapExpression (some item)) (callExpressions args) :=
  makes_mapM fun item _ => makes_call (hexpression (some item))

theorem makes_mapOptionalExpression (rawExpression : Option Raw.Expr) :
    Makes status (mapOptionalExpression mapExpression rawExpression) (callOptional rawExpression) := by
  cases rawExpression with
  | none => exact makes_ok
  | some rawExpression => exact (makes_call (hexpression (some rawExpression))).map _

theorem makes_mapAlternative (alternative : Raw.CaseAltSum × Option Raw.Expr) :
    Makes status (mapAlternative tables mapExpression alternative)
      [lookup (mapCasePattern tables alternative.1), .call (.expression alternative.2)] :=
  (makes_lookup (ends_mapCasePattern tables alternative.1)).bind fun _ _ => (makes_call (hexpression alternative.2)).map _

/-- A template is looked up, and an expression mapped. -/
theorem makes_templateThenExpression {α : Type} (reference : Option Raw.TypeConId) (expr : Option Raw.Expr)
    (f : DamlLfTemplateId → DamlLfExpression → α) :
    Makes status (mapTemplateReference tables packageId reference >>= fun templateId =>
        mapExpression expr >>= fun argument => .ok (f templateId argument))
      [lookup (mapTemplateReference tables packageId reference), .call (.expression expr)] :=
  (makes_lookup (ends_mapTemplateReference packageId tables reference)).bind fun _ _ => (makes_call (hexpression expr)).map _

theorem makes_mapUpdateExpression (update : Raw.Update) :
    Makes status (mapUpdateExpression tables packageId mapExpression update) (stepsOfUpdate packageId tables update) := by
  cases update with
  | pure expr => exact (makes_call (hexpression expr)).map _
  | block bindings body =>
      exact (makes_mapBindings tables hexpression bindings).bind fun _ _ => (makes_call (hexpression body)).map _
  | create template expr => exact makes_templateThenExpression packageId tables hexpression template expr _
  | exercise template choice cid arg =>
      refine (makes_lookup (ends_mapTemplateReference packageId tables template)).bind fun _ _ => ?_
      refine (makes_lookup (ends_resolveInternedString tables _)).bind fun _ _ => ?_
      exact (makes_call (hexpression cid)).bind fun _ _ => (makes_call (hexpression arg)).map _
  | fetch template cid => exact makes_templateThenExpression packageId tables hexpression template cid _
  | getTime => exact makes_ok
  | embedExpr body => exact (makes_call (hexpression body)).map _
  | createInterface interface expr => exact makes_templateThenExpression packageId tables hexpression interface expr _
  | exerciseInterface interface choice cid arg guard =>
      refine (makes_lookup (ends_mapTemplateReference packageId tables interface)).bind fun _ _ => ?_
      refine (makes_lookup (ends_resolveInternedString tables _)).bind fun _ _ => ?_
      refine (makes_call (hexpression cid)).bind fun _ _ => (makes_call (hexpression arg)).bind fun _ _ => ?_
      exact (makes_mapOptionalExpression hexpression guard).map _
  | fetchInterface interface cid => exact makes_templateThenExpression packageId tables hexpression interface cid _
  | tryCatch tryExpr binder catchExpr =>
      refine (makes_call (hexpression tryExpr)).bind fun _ _ => ?_
      exact (makes_lookup (ends_resolveInternedString tables _)).bind fun _ _ => (makes_call (hexpression catchExpr)).map _
  | ledgerTimeLt time => exact (makes_call (hexpression time)).map _
  | other kind => exact makes_ok

theorem makes_mapRecordUpdate (fieldInternedStr : Int) (record update : Option Raw.Expr)
    (f : String → DamlLfExpression → DamlLfExpression → DamlLfNode) :
    Makes status (resolveInternedString tables (some fieldInternedStr) >>= fun fieldName =>
        mapExpression record >>= fun record => mapExpression update >>= fun value => .ok (f fieldName record value))
      [lookup (resolveInternedString tables (some fieldInternedStr)), .call (.expression record), .call (.expression update)] := by
  refine (makes_lookup (ends_resolveInternedString tables _)).bind fun _ _ => ?_
  exact (makes_call (hexpression record)).bind fun _ _ => (makes_call (hexpression update)).map _

theorem makes_mapNode (sum : Raw.ExprSum) (hnode : ∀ expr, sum ≠ .tyApp expr ∧ sum ≠ .tyAbs expr)
    (hinterned : ∀ index, sum ≠ .internedExpr index) :
    Makes status (mapNode tables packageId mapExpression sum) (stepsOfSum packageId tables sum) := by
  cases sum with
  | varInternedStr index => exact (makes_lookup (ends_resolveInternedString tables _)).map _
  | val value => exact (makes_lookup (ends_mapValueReference packageId tables value)).map _
  | builtin name => exact makes_ok
  | builtinCon builtinCon => exact makes_ok
  | builtinLit literal => exact makes_lookup (ends_mapBuiltinLit tables literal)
  | recCon fields => exact (makes_mapFields tables hexpression fields).map _
  | recProj field record =>
      exact (makes_lookup (ends_resolveInternedString tables _)).bind fun _ _ => (makes_call (hexpression record)).map _
  | recUpd field record update => exact makes_mapRecordUpdate tables hexpression field record update _
  | variantCon constructor argument =>
      exact (makes_lookup (ends_resolveInternedString tables _)).bind fun _ _ => (makes_call (hexpression argument)).map _
  | enumCon constructor => exact (makes_lookup (ends_resolveInternedString tables _)).map _
  | structCon fields => exact (makes_mapFields tables hexpression fields).map _
  | structProj field struct =>
      exact (makes_lookup (ends_resolveInternedString tables _)).bind fun _ _ => (makes_call (hexpression struct)).map _
  | structUpd field struct update => exact makes_mapRecordUpdate tables hexpression field struct update _
  | app function args =>
      exact (makes_call (hexpression function)).bind fun _ _ => (makes_mapExpressions hexpression args).map _
  | tyApp expr => exact absurd rfl (hnode expr).1
  | abs param body =>
      refine (makes_lookup (ends_mapM param fun _ => ends_resolveInternedString tables _)).bind fun _ _ => ?_
      exact (makes_call (hexpression body)).map _
  | tyAbs body => exact absurd rfl (hnode body).2
  | case scrut alts =>
      refine (makes_call (hexpression scrut)).bind fun _ _ => ?_
      exact (makes_mapM fun alternative _ => makes_mapAlternative tables hexpression alternative).map _
  | let_ bindings body =>
      exact (makes_mapBindings tables hexpression bindings).bind fun _ _ => (makes_call (hexpression body)).map _
  | nil => exact makes_ok
  | cons front tail =>
      exact (makes_mapExpressions hexpression front).bind fun _ _ => (makes_call (hexpression tail)).map _
  | update update => exact (makes_mapUpdateExpression packageId tables hexpression update).map _
  | optionalNone => exact makes_ok
  | optionalSome value => exact (makes_call (hexpression value)).map _
  | throw exception => exact (makes_call (hexpression exception)).map _
  | internedExpr index => exact absurd rfl (hinterned index)
  | other kind => exact makes_ok

theorem makes_mapExpressionWithoutSourceLocation (sum : Raw.ExprSum) :
    Makes status (mapExpressionWithoutSourceLocation tables packageId mapExpression sum) (stepsOfSum packageId tables sum) := by
  rw [mapExpressionWithoutSourceLocation.eq_def]
  split
  · exact makes_call (hexpression _)
  · exact makes_call (hexpression _)
  · exact makes_call (hexpression _)
  · next htyApp htyAbs hinterned =>
      exact (makes_mapNode packageId tables hexpression sum (fun expr => ⟨htyApp expr, htyAbs expr⟩) hinterned).map _

theorem makes_mapExpressionWith (rawExpression : Option Raw.Expr) :
    Makes status (mapExpressionWith tables packageId mapExpression rawExpression)
      (stepsOfExpression packageId tables rawExpression) := by
  cases rawExpression with
  | none => exact makes_ok
  | some rawExpression =>
      cases rawExpression with
      | mk sum location =>
          refine (makes_mapExpressionWithoutSourceLocation packageId tables hexpression sum).bind fun _ _ => ?_
          exact (makes_lookup (ends_mapExpressionSourceLocation packageId tables location)).map _

end Expressions

end MakesSteps

/-! ## Packages -/

section Packages

variable (packageId : String) (rawPackage : Raw.Package)

theorem scaleAgrees (fuel : Nat) : ScaleAgrees (status (steps packageId rawPackage) fuel) (readNumericScale rawPackage.toTables fuel) := by
  induction fuel with
  | zero =>
      refine ⟨fun rawType stop hread => ?_, fun rawType scale hread => ?_, fun scale hread => ?_⟩
      · cases hread
        exact ⟨rfl, rfl⟩
      · cases hread
      · cases hread
  | succ fuel ih =>
      have hcall : ∀ index : Int, 0 ≤ index → status (steps packageId rawPackage) (fuel + 1) (.type (some (.internedType index)))
          = status (steps packageId rawPackage) fuel (.type (entryAt rawPackage.internedTypes index)) := by
        intro index hindex
        rw [status, steps, stepsOfType, if_pos hindex, runSteps]
        cases status (steps packageId rawPackage) fuel (.type (entryAt rawPackage.internedTypes index)) <;> rfl
      refine ⟨fun rawType stop hread => ?_, fun rawType scale hread => ?_, fun scale hread => rfl⟩
      · rw [readNumericScale.eq_def] at hread
        split at hread
        · next hzero => cases hzero
        · next index hsucc =>
            cases hsucc
            split at hread
            · next hindex =>
                rw [hcall index hindex]
                exact ih.gaveUp _ stop hread
            · cases hread
        · cases hread
        · cases hread
      · rw [readNumericScale.eq_def] at hread
        split at hread
        · next hzero => cases hzero
        · next index hsucc =>
            cases hsucc
            split at hread
            · next hindex =>
                rw [hcall index hindex]
                exact ih.found _ scale hread
            · cases hread
        · rfl
        · cases hread

theorem statusOf_mapType (fuel : Nat) (rawType : Option Raw.LfType) :
    Traversal.statusOf (mapType rawPackage.toTables packageId fuel rawType)
      = status (steps packageId rawPackage) fuel (.type rawType) := by
  induction fuel generalizing rawType with
  | zero => rfl
  | succ fuel ih => exact makes_mapTypeWith packageId rawPackage.toTables ih (scaleAgrees packageId rawPackage fuel) rawType

theorem statusOf_mapExpression (fuel : Nat) (rawExpression : Option Raw.Expr) :
    Traversal.statusOf (mapExpression rawPackage.toTables packageId fuel rawExpression)
      = status (steps packageId rawPackage) fuel (.expression rawExpression) := by
  induction fuel generalizing rawExpression with
  | zero => rfl
  | succ fuel ih => exact makes_mapExpressionWith packageId rawPackage.toTables ih rawExpression

variable (fuel : Nat)

theorem makes_mapField (nameInternedStr : Int) (rawType : Option Raw.LfType) :
    Makes (status (steps packageId rawPackage) fuel) (mapField packageId rawPackage.toTables fuel nameInternedStr rawType)
      (stepsOfField rawPackage.toTables nameInternedStr rawType) := by
  refine (makes_lookup (ends_resolveInternedString rawPackage.toTables _)).bind fun _ _ => ?_
  exact (makes_call (statusOf_mapType packageId rawPackage fuel rawType)).map _

theorem makes_mapFieldTypes (fields : List (Int × Option Raw.LfType)) :
    Makes (status (steps packageId rawPackage) fuel)
      (fields.mapM fun item => mapField packageId rawPackage.toTables fuel item.1 item.2)
      (fields.flatMap fun item => stepsOfField rawPackage.toTables item.1 item.2) :=
  makes_mapM fun item _ => makes_mapField packageId rawPackage fuel item.1 item.2

theorem makes_mapDefinition (dataCons : Raw.DataCons) :
    Makes (status (steps packageId rawPackage) fuel) (mapDefinition packageId rawPackage.toTables fuel dataCons)
      (stepsOfDefinition rawPackage.toTables dataCons) := by
  cases dataCons with
  | record fields => exact (makes_mapFieldTypes packageId rawPackage fuel fields).map _
  | variant fields => exact (makes_mapFieldTypes packageId rawPackage fuel fields).map _
  | enum constructors =>
      exact (makes_lookup (ends_mapM constructors fun _ => ends_resolveInternedString rawPackage.toTables _)).map _
  | other => exact makes_ok

variable {packageId rawPackage fuel}

theorem bind_eq_ok {α β : Type} {x : Mapping α} {f : α → Mapping β} {b : β} (h : x >>= f = .ok b) :
    ∃ a, x = .ok a ∧ f a = .ok b := by
  cases x with
  | ok a => exact ⟨a, rfl, h⟩
  | error stop => cases h

theorem isSome_of_mapDefinition {dataCons : Raw.DataCons} {definition : Option MappedDataTypeDefinition}
    (h : mapDefinition packageId rawPackage.toTables fuel dataCons = .ok definition) :
    definition.isSome = isDefinition dataCons := by
  cases dataCons with
  | other =>
      cases h
      rfl
  | _ =>
      obtain ⟨_, -, hsome⟩ := bind_eq_ok h
      cases hsome
      rfl

variable (packageId rawPackage fuel)

theorem makes_mapDataType (rawDataType : Raw.DefDataType) :
    Makes (status (steps packageId rawPackage) fuel) (mapDataType packageId rawPackage.toTables fuel rawDataType)
      (stepsOfDataType rawPackage.toTables rawDataType) := by
  refine (makes_mapDefinition packageId rawPackage fuel rawDataType.dataCons).bind fun definition hdefinition => ?_
  rw [← isSome_of_mapDefinition hdefinition]
  cases definition with
  | none => exact makes_ok
  | some definition => exact (makes_lookup (ends_resolveInternedDottedName rawPackage.toTables _)).map _

variable {packageId rawPackage fuel}

/-- Of a data type of a known form, one with its name is made. -/
theorem name_of_mapDataType {rawDataType : Raw.DefDataType} {made : Option MappedDataType}
    (h : mapDataType packageId rawPackage.toTables fuel rawDataType = .ok made) :
    (made = none ∧ isDefinition rawDataType.dataCons = false) ∨ ∃ dataType, made = some dataType
      ∧ isDefinition rawDataType.dataCons = true
      ∧ resolveInternedDottedName rawPackage.toTables (some rawDataType.nameInternedDname) = .ok dataType.name := by
  obtain ⟨definition, hdefinition, hrest⟩ := bind_eq_ok h
  have hsome := isSome_of_mapDefinition hdefinition
  cases definition with
  | none =>
      cases hrest
      exact .inl ⟨rfl, hsome.symm⟩
  | some definition =>
      obtain ⟨name, hname, hdataType⟩ := bind_eq_ok hrest
      cases hdataType
      exact .inr ⟨_, rfl, hsome.symm, hname⟩

/-- A data type with a name is found among those made when the module has one. -/
theorem find_eq_none_iff {rawDataTypes : List Raw.DefDataType} {made : List (Option MappedDataType)} {rawTemplate : Raw.DefTemplate}
    {templateName : String} (h : rawDataTypes.mapM (fun item => mapDataType packageId rawPackage.toTables fuel item) = .ok made)
    (hname : resolveInternedDottedName rawPackage.toTables (some rawTemplate.tyconInternedDname) = .ok templateName) :
    ((made.filterMap id).find? fun item => item.name = templateName) = none
      ↔ hasDataType rawPackage.toTables rawDataTypes rawTemplate = false := by
  induction rawDataTypes generalizing made with
  | nil =>
      cases h
      exact iff_of_true rfl rfl
  | cons first rest ih =>
      rw [List.mapM_cons] at h
      obtain ⟨firstMade, hfirst, htail⟩ := bind_eq_ok h
      obtain ⟨restMade, hrest, hmade⟩ := bind_eq_ok htail
      cases hmade
      have hrec := ih hrest
      rw [hasDataType, List.any_cons, ← hasDataType]
      obtain ⟨rfl, hother⟩ | ⟨dataType, rfl, hdefined, hfound⟩ := name_of_mapDataType hfirst
      · rw [hother, List.filterMap_cons_none rfl, hrec, Bool.false_and, Bool.false_or]
      · rw [hdefined, hfound, hname, List.filterMap_cons_some (f := id) rfl, List.find?_cons]
        by_cases hsame : dataType.name = templateName
        · simp [hsame]
        · simpa [hsame] using hrec

variable (packageId rawPackage fuel)

theorem makes_mapChoiceParameter (argBinder : Option (Int × Option Raw.LfType)) :
    Makes (status (steps packageId rawPackage) fuel) (mapChoiceParameter packageId rawPackage.toTables fuel argBinder)
      (stepsOfChoiceParameter rawPackage.toTables argBinder) := by
  cases argBinder with
  | none => rfl
  | some argBinder => exact makes_mapField packageId rawPackage fuel argBinder.1 argBinder.2

theorem makes_mapChoice (rawChoice : Raw.TemplateChoice) :
    Makes (status (steps packageId rawPackage) fuel) (mapChoice packageId rawPackage.toTables fuel rawChoice)
      (stepsOfChoice rawPackage.toTables rawChoice) := by
  refine (makes_lookup (ends_resolveInternedString rawPackage.toTables _)).bind fun _ _ => ?_
  refine (makes_lookup (ends_resolveInternedString rawPackage.toTables _)).bind fun _ _ => ?_
  refine (makes_mapChoiceParameter packageId rawPackage fuel rawChoice.argBinder).bind fun _ _ => ?_
  refine (makes_call (statusOf_mapType packageId rawPackage fuel rawChoice.retType)).bind fun _ _ => ?_
  exact (makes_mapOptionalExpression (statusOf_mapExpression packageId rawPackage fuel) rawChoice.update).map _

theorem makes_mapTemplate {dataTypes : List Raw.DefDataType} {made : List (Option MappedDataType)}
    (hmade : dataTypes.mapM (fun item => mapDataType packageId rawPackage.toTables fuel item) = .ok made)
    (moduleName : String) (rawTemplate : Raw.DefTemplate) :
    Makes (status (steps packageId rawPackage) fuel)
      (mapTemplate packageId rawPackage.toTables fuel moduleName (made.filterMap id) rawTemplate)
      (stepsOfTemplate rawPackage.toTables dataTypes rawTemplate) := by
  refine (makes_lookup (ends_resolveInternedDottedName rawPackage.toTables _)).bind fun templateName hname => ?_
  have hmatching : Makes (status (steps packageId rawPackage) fuel) (matchingDataType (made.filterMap id) templateName)
      [.check (hasDataType rawPackage.toTables dataTypes rawTemplate)] := by
    have hiff := find_eq_none_iff hmade hname
    rw [matchingDataType]
    refine makes_check (fun hpasses => ?_) fun hfails => ?_
    · split
      · next hnone => rw [hiff.mp hnone] at hpasses; cases hpasses
      · rfl
    · rw [hiff.mpr hfails]
      rfl
  refine hmatching.bind fun _ _ => ?_
  refine (makes_lookup (ends_resolveInternedString rawPackage.toTables _)).bind fun _ _ => ?_
  exact (makes_mapM fun item _ => makes_mapChoice packageId rawPackage fuel item).map _

theorem makes_mapValue (rawValue : Raw.DefValue) :
    Makes (status (steps packageId rawPackage) fuel) (mapValue packageId rawPackage.toTables fuel rawValue)
      (stepsOfValue rawPackage.toTables rawValue) := by
  refine (makes_lookup (ends_resolveInternedDottedName rawPackage.toTables _)).bind fun _ _ => ?_
  refine (makes_call (statusOf_mapType packageId rawPackage fuel _)).bind fun _ _ => ?_
  exact (makes_call (statusOf_mapExpression packageId rawPackage fuel rawValue.expr)).map _

theorem makes_mapModule (rawModule : Raw.Module) :
    Makes (status (steps packageId rawPackage) fuel) (mapModule packageId rawPackage.toTables fuel rawModule)
      (stepsOfModule rawPackage.toTables rawModule) := by
  refine (makes_lookup (ends_resolveInternedDottedName rawPackage.toTables _)).bind fun moduleName _ => ?_
  refine (makes_mapM fun item _ => makes_mapDataType packageId rawPackage fuel item).bind fun made hmade => ?_
  refine (makes_mapM fun value _ => makes_mapValue packageId rawPackage fuel value).bind fun _ _ => ?_
  exact (makes_mapM fun item _ => makes_mapTemplate packageId rawPackage fuel hmade moduleName item).map _

/-- The package is mapped, or fails to, or is given up as its steps are. -/
theorem statusOf_mapPackage :
    Traversal.statusOf (mapPackage fuel packageId rawPackage) = status (steps packageId rawPackage) (fuel + 1) .package := by
  refine ((makes_lookup (ends_resolveInternedString rawPackage.toTables _)).bind fun _ _ => ?_ :
    Makes (status (steps packageId rawPackage) fuel) _ (stepsOfPackage rawPackage))
  refine (makes_lookup (ends_resolveInternedString rawPackage.toTables _)).bind fun _ _ => ?_
  exact (makes_mapM fun module _ => makes_mapModule packageId rawPackage fuel module).map _

end Packages

end CantonSdk.DamlLf
