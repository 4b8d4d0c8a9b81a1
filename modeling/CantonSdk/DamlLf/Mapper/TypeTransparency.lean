import CantonSdk.DamlLf.Mapper.MapperSteps

/-!
# Types in other encodings

The compiler writes a type out or refers to an entry of the table, and applies a type with an argument list or with
applications one by one. Types that differ only so are mapped to the same type.
-/

set_option linter.all false

namespace CantonSdk.DamlLf

open CantonSdk.Base

/-- The head that is applied to one more argument. A `Numeric` has one argument, of the kind of numbers. -/
inductive Applied : Raw.LfType → Raw.LfType → Raw.LfType → Prop
  | var (varInternedStr : Int) (front : List Raw.LfType) (argument : Raw.LfType) :
      Applied (.var varInternedStr front) argument (.var varInternedStr (front ++ [argument]))
  | con (tycon : Option Raw.TypeConId) (front : List Raw.LfType) (argument : Raw.LfType) :
      Applied (.con tycon front) argument (.con tycon (front ++ [argument]))
  | builtin (builtin : Raw.BuiltinType) (front : List Raw.LfType) (argument : Raw.LfType)
      (hkind : builtin = .numeric → front = []) :
      Applied (.builtin builtin front) argument (.builtin builtin (front ++ [argument]))

section Relation

variable (table table' : List Raw.LfType)

/-- Types whose parts are the same, with references to the tables, and with applications in both forms. -/
inductive TypeStep (Same : Option Raw.LfType → Option Raw.LfType → Prop) : Option Raw.LfType → Option Raw.LfType → Prop
  | none : TypeStep Same none none
  | var (varInternedStr : Int) {args args' : List Raw.LfType}
      (hargs : List.Forall₂ (fun item item' => Same (some item) (some item')) args args') :
      TypeStep Same (some (.var varInternedStr args)) (some (.var varInternedStr args'))
  | con (tycon : Option Raw.TypeConId) {args args' : List Raw.LfType}
      (hargs : List.Forall₂ (fun item item' => Same (some item) (some item')) args args') :
      TypeStep Same (some (.con tycon args)) (some (.con tycon args'))
  | builtin (builtin : Raw.BuiltinType) {args args' : List Raw.LfType}
      (hargs : List.Forall₂ (fun item item' => Same (some item) (some item')) args args') :
      TypeStep Same (some (.builtin builtin args)) (some (.builtin builtin args'))
  | forall (vars : List Raw.TypeVarWithKind) {body body' : Option Raw.LfType} (hbody : Same body body') :
      TypeStep Same (some (.forall vars body)) (some (.forall vars body'))
  | nat (nat : Int) : TypeStep Same (some (.nat nat)) (some (.nat nat))
  | tapp {lhs lhs' rhs rhs' : Option Raw.LfType} (hlhs : Same lhs lhs') (hrhs : Same rhs rhs') :
      TypeStep Same (some (.tapp lhs rhs)) (some (.tapp lhs' rhs'))
  | other : TypeStep Same (some .other) (some .other)
  | noReference {index : Int} (hindex : index < 0) :
      TypeStep Same (some (.internedType index)) (some (.internedType index))
  | referenceLeft {index : Int} (hindex : 0 ≤ index) {rawType' : Option Raw.LfType}
      (hentry : Same (entryAt table index) rawType') : TypeStep Same (some (.internedType index)) rawType'
  | referenceRight {index : Int} (hindex : 0 ≤ index) {rawType : Option Raw.LfType}
      (hentry : Same rawType (entryAt table' index)) : TypeStep Same rawType (some (.internedType index))
  | appliedLeft {head argument applied : Raw.LfType} {lhs' rhs' : Option Raw.LfType} (happlied : Applied head argument applied)
      (hhead : Same (some head) lhs') (hargument : Same (some argument) rhs') :
      TypeStep Same (some applied) (some (.tapp lhs' rhs'))
  | appliedRight {head' argument' applied' : Raw.LfType} {lhs rhs : Option Raw.LfType}
      (happlied : Applied head' argument' applied') (hhead : Same lhs (some head')) (hargument : Same rhs (some argument')) :
      TypeStep Same (some (.tapp lhs rhs)) (some applied')

/-- Types that are the same to a depth, which references add to. -/
def SameType : Nat → Option Raw.LfType → Option Raw.LfType → Prop
  | 0 => fun _ _ => False
  | depth + 1 => TypeStep table table' (SameType depth)

end Relation

/-! ## An argument list applies one argument after the other -/

section Application

variable (tables : Raw.Tables) (packageId : String) (readScale : Option Raw.LfType → Mapping (Option Nat))
  (mapType : Option Raw.LfType → Mapping MappedType)

/-- What an application makes of its mapped left side. -/
def applyTo (rhs : Option Raw.LfType) (lhs : MappedType) : Mapping MappedType :=
  numericScaleFor readScale lhs.builtinType rhs >>= applyType mapType rhs lhs

theorem mapTypeWith_tapp (lhs rhs : Option Raw.LfType) :
    mapTypeWith tables packageId readScale mapType (some (.tapp lhs rhs)) = mapType lhs >>= applyTo readScale mapType rhs := rfl

theorem mapping_bind_assoc {α β γ : Type} (x : Mapping α) (f : α → Mapping β) (g : β → Mapping γ) :
    x >>= f >>= g = x >>= fun a => f a >>= g := by
  cases x <;> rfl

/-- Arguments of a head that is not a `Numeric` are added at the end. -/
theorem addArgument_last (front : List Raw.LfType) (argument : Raw.LfType) (head : List MappedType → MappedType)
    (hbuiltin : ∀ args, (head args).builtinType ≠ .numeric)
    (hadd : ∀ args last, (head args).addArgument last = head (args ++ [last])) :
    (((front ++ [argument]).mapM fun item => mapType (some item)) >>= fun args => .ok (head args))
      = (front.mapM fun item => mapType (some item)) >>= fun args => (.ok (head args) : Mapping MappedType)
        >>= applyTo readScale mapType (some argument) := by
  rw [List.mapM_append, mapping_bind_assoc]
  congr 1
  funext args
  have happly : ((.ok (head args) : Mapping MappedType) >>= applyTo readScale mapType (some argument))
      = mapType (some argument) >>= fun last => .ok (head (args ++ [last])) := by
    show applyTo readScale mapType (some argument) (head args) = _
    rw [applyTo, numericScaleFor, if_neg (hbuiltin args)]
    show (mapType (some argument) >>= fun last => .ok ((head args).addArgument last)) = _
    simp only [hadd]
  rw [happly, List.mapM_cons, List.mapM_nil]
  cases mapType (some argument) <;> rfl

theorem mapBuiltinType_eq_numeric {builtin : Raw.BuiltinType} (h : mapBuiltinType builtin = .numeric) : builtin = .numeric := by
  cases builtin <;> first | rfl | cases h

/-- The first argument of a `Numeric` is its scale, in both forms. -/
theorem numeric_applied (hnone : readScale none = .ok none) (argument : Raw.LfType) :
    mapTypeWith tables packageId readScale mapType (some (.builtin .numeric [argument]))
      = mapTypeWith tables packageId readScale mapType (some (.builtin .numeric [])) >>= applyTo readScale mapType (some argument) := by
  have hhead : mapTypeWith tables packageId readScale mapType (some (.builtin .numeric []))
      = .ok (.mk .numeric none none none none []) := by
    show readScale none >>= _ = _
    rw [hnone]
    rfl
  rw [hhead]
  show readScale (some argument) >>= _ = readScale (some argument) >>= applyType mapType (some argument) _
  congr 1
  funext scale
  cases scale with
  | some scale => rfl
  | none =>
      show ([argument].mapM fun item => mapType (some item)) >>= _ = mapType (some argument) >>= _
      rw [List.mapM_cons, List.mapM_nil]
      cases mapType (some argument) <;> rfl

/-- The applied head is mapped as the head, and then applied. -/
theorem mapTypeWith_applied (hnone : readScale none = .ok none) {head argument applied : Raw.LfType}
    (happlied : Applied head argument applied) :
    mapTypeWith tables packageId readScale mapType (some applied)
      = mapTypeWith tables packageId readScale mapType (some head) >>= applyTo readScale mapType (some argument) := by
  cases happlied with
  | var index front =>
      rw [mapTypeWith, mapTypeWith, mapping_bind_assoc]
      exact addArgument_last readScale mapType front argument _ (fun _ h => DamlLfBuiltinType.noConfusion h)
        fun _ _ => rfl
  | con tycon front =>
      rw [mapTypeWith, mapTypeWith, mapping_bind_assoc]
      congr 1
      funext reference
      rw [mapping_bind_assoc]
      exact addArgument_last readScale mapType front argument _ (fun _ h => DamlLfBuiltinType.noConfusion h)
        fun _ _ => rfl
  | builtin builtin front _ hkind =>
      by_cases hnumeric : mapBuiltinType builtin = .numeric
      · obtain rfl := mapBuiltinType_eq_numeric hnumeric
        obtain rfl := hkind rfl
        exact numeric_applied tables packageId readScale mapType hnone argument
      · have hbuiltin : ∀ args, mapTypeWith tables packageId readScale mapType (some (.builtin builtin args))
            = (args.mapM fun item => mapType (some item)) >>= fun typeArguments =>
              .ok (.mk (mapBuiltinType builtin) none none none none typeArguments) := by
          intro args
          rw [mapTypeWith, numericScaleFor, if_neg hnumeric]
          rfl
        rw [hbuiltin, hbuiltin, mapping_bind_assoc]
        exact addArgument_last readScale mapType front argument (fun args => .mk (mapBuiltinType builtin) none none none none args)
          (fun _ => hnumeric) fun _ _ => rfl

end Application

/-! ## The same types are mapped to the same type -/

section Mapping

variable {tables tables' : Raw.Tables} {packageId : String}

/-- What is looked up by name is the same in both tables. -/
def SameNames (tables tables' : Raw.Tables) : Prop :=
  ∃ internedTypes internedExprs, tables' = { tables with internedTypes := internedTypes, internedExprs := internedExprs }

theorem SameNames.symm (h : SameNames tables tables') : SameNames tables' tables := by
  obtain ⟨types, exprs, rfl⟩ := h
  exact ⟨tables.internedTypes, tables.internedExprs, rfl⟩

/-- Kinds are looked up in a table of their own. -/
theorem mapTypeParameterKind_same (internedTypes : List Raw.LfType) (internedExprs : List Raw.Expr) (visited : Finset Nat)
    (rawKind : Option Raw.Kind) :
    mapTypeParameterKind { tables with internedTypes := internedTypes, internedExprs := internedExprs } visited rawKind
      = mapTypeParameterKind tables visited rawKind := by
  induction visited, rawKind using mapTypeParameterKind.induct tables with
  | case3 visited params result hparams hresult =>
      rw [mapTypeParameterKind, mapTypeParameterKind, hresult]
      congr 1
      exact List.map_congr_left fun parameter _ => hparams parameter
  | case4 visited index hindex hentry =>
      rw [mapTypeParameterKind, dif_pos hindex, mapTypeParameterKind, dif_pos hindex]
      exact hentry
  | case5 visited index hindex => rw [mapTypeParameterKind, dif_neg hindex, mapTypeParameterKind, dif_neg hindex]
  | _ => rw [mapTypeParameterKind, mapTypeParameterKind]

theorem mapTypeParameter_same (internedTypes : List Raw.LfType) (internedExprs : List Raw.Expr) :
    mapTypeParameter { tables with internedTypes := internedTypes, internedExprs := internedExprs } = mapTypeParameter tables := by
  funext rawParameter
  rw [mapTypeParameter, mapTypeParameter, mapTypeParameterKind_same]

theorem readNumericScale_none {fuel : Nat} (hfuel : 0 < fuel) : readNumericScale tables fuel none = .ok none := by
  cases fuel with
  | zero => exact absurd hfuel (Nat.lt_irrefl 0)
  | succ fuel => rfl

theorem readNumericScale_reference {fuel : Nat} {index : Int} (hindex : 0 ≤ index) :
    readNumericScale tables (fuel + 1) (some (.internedType index))
      = readNumericScale tables fuel (entryAt tables.internedTypes index) := by
  rw [readNumericScale, if_pos hindex]

theorem readNumericScale_noReference {fuel : Nat} {index : Int} (hindex : index < 0) :
    readNumericScale tables (fuel + 1) (some (.internedType index)) = .ok none := by
  rw [readNumericScale, if_neg (Int.not_le.mpr hindex)]

/-- The scale does not depend on the encoding of the number. -/
theorem readNumericScale_same {depth fuel fuel' : Nat} {rawType rawType' : Option Raw.LfType}
    (h : SameType tables.internedTypes tables'.internedTypes depth rawType rawType') (hfuel : depth < fuel) (hfuel' : depth < fuel') :
    readNumericScale tables fuel rawType = readNumericScale tables' fuel' rawType' ∧ Ends (readNumericScale tables fuel rawType) := by
  induction depth generalizing fuel fuel' rawType rawType' with
  | zero => exact h.elim
  | succ depth ih =>
      obtain ⟨fuel, rfl⟩ : ∃ less, fuel = less + 1 := ⟨fuel - 1, by omega⟩
      obtain ⟨fuel', rfl⟩ : ∃ less, fuel' = less + 1 := ⟨fuel' - 1, by omega⟩
      cases h with
      | referenceLeft hindex hentry =>
          rw [readNumericScale_reference hindex]
          exact ih hentry (by omega) (by omega)
      | referenceRight hindex hentry =>
          rw [readNumericScale_reference hindex]
          exact ih hentry (by omega) (by omega)
      | noReference hindex =>
          rw [readNumericScale_noReference hindex, readNumericScale_noReference hindex]
          exact ⟨rfl, ends_ok⟩
      | appliedLeft happlied => cases happlied <;> exact ⟨rfl, ends_ok⟩
      | appliedRight happlied => cases happlied <;> exact ⟨rfl, ends_ok⟩
      | _ => exact ⟨rfl, ends_ok⟩

theorem mapM_same {f f' : Option Raw.LfType → Mapping MappedType} {args args' : List Raw.LfType}
    (h : List.Forall₂ (fun item item' => f (some item) = f' (some item') ∧ Ends (f (some item))) args args') :
    (args.mapM fun item => f (some item)) = args'.mapM (fun item => f' (some item)) ∧ Ends (args.mapM fun item => f (some item)) := by
  induction h with
  | nil => exact ⟨rfl, ends_ok⟩
  | cons hfirst _ ih =>
      rw [List.mapM_cons, List.mapM_cons, hfirst.1, ih.1]
      exact ⟨rfl, (hfirst.1 ▸ hfirst.2).bind fun _ => (ih.1 ▸ ih.2).bind fun _ => ends_ok⟩

section Step

variable {readScale readScale' : Option Raw.LfType → Mapping (Option Nat)} {mapType mapType' : Option Raw.LfType → Mapping MappedType}

theorem applyTo_same {rhs rhs' : Option Raw.LfType} (hscale : readScale rhs = readScale' rhs')
    (htype : mapType rhs = mapType' rhs') : applyTo readScale mapType rhs = applyTo readScale' mapType' rhs' := by
  funext lhs
  rw [applyTo, applyTo, numericScaleFor, numericScaleFor, hscale]
  congr 1
  funext scale
  cases scale with
  | some scale => rfl
  | none =>
      show mapType rhs >>= _ = mapType' rhs' >>= _
      rw [htype]

theorem ends_numericScaleFor {builtinType : DamlLfBuiltinType} {rawScale : Option Raw.LfType} (h : Ends (readScale rawScale)) :
    Ends (numericScaleFor readScale builtinType rawScale) := by
  rw [numericScaleFor]
  split
  · exact h
  · exact ends_ok

theorem ends_applyTo {rhs : Option Raw.LfType} (hscale : Ends (readScale rhs)) (htype : Ends (mapType rhs)) (lhs : MappedType) :
    Ends (applyTo readScale mapType rhs lhs) := by
  refine (ends_numericScaleFor hscale).bind fun scale => ?_
  cases scale with
  | some scale => exact ends_ok
  | none => exact htype.bind fun _ => ends_ok

end Step

/-- The results are the same, and there are results. -/
def Agrees {α : Type} (x x' : Mapping α) : Prop := x = x' ∧ Ends x

theorem Agrees.symm {α : Type} {x x' : Mapping α} (h : Agrees x x') : Agrees x' x := ⟨h.1.symm, h.1 ▸ h.2⟩

theorem Agrees.bind {α β : Type} {x x' : Mapping α} {f f' : α → Mapping β} (hx : Agrees x x') (hf : ∀ a, Agrees (f a) (f' a)) :
    Agrees (x >>= f) (x' >>= f') := by
  obtain rfl := hx.1
  obtain rfl : f = f' := funext fun a => (hf a).1
  exact ⟨rfl, hx.2.bind fun a => (hf a).2⟩

theorem agrees_ok {α : Type} {a : α} : Agrees (.ok a : Mapping α) (.ok a) := ⟨rfl, ends_ok⟩

/-- An applied head on the left, and an application on the right. -/
theorem applied_same {head argument applied : Raw.LfType} {lhs' rhs' : Option Raw.LfType} {fuel fuel' : Nat}
    (happlied : Applied head argument applied) (hfuel : 0 < fuel)
    (hhead : Agrees (mapType tables packageId (fuel + 1) (some head)) (mapType tables' packageId fuel' lhs'))
    (hargument : Agrees (mapType tables packageId fuel (some argument)) (mapType tables' packageId fuel' rhs'))
    (hscale : Agrees (readNumericScale tables fuel (some argument)) (readNumericScale tables' fuel' rhs')) :
    Agrees (mapType tables packageId (fuel + 1) (some applied)) (mapType tables' packageId (fuel' + 1) (some (.tapp lhs' rhs'))) := by
  rw [mapType, mapTypeWith_applied tables packageId _ _ (readNumericScale_none hfuel) happlied, mapType, mapTypeWith_tapp]
  refine Agrees.bind hhead fun lhs => ⟨?_, ends_applyTo hscale.2 hargument.2 lhs⟩
  rw [applyTo_same hscale.1 hargument.1]

/-- The arguments of a built-in type, with the scale read of the first one. -/
theorem builtinArguments_same {fuel fuel' : Nat} {args args' : List Raw.LfType} {builtinType : DamlLfBuiltinType}
    (hfuel : 0 < fuel) (hfuel' : 0 < fuel')
    (hscale : List.Forall₂ (fun item item' =>
      Agrees (readNumericScale tables fuel (some item)) (readNumericScale tables' fuel' (some item'))) args args')
    (htypes : List.Forall₂ (fun item item' =>
      Agrees (mapType tables packageId fuel (some item)) (mapType tables' packageId fuel' (some item'))) args args') :
    Agrees
      (numericScaleFor (readNumericScale tables fuel) builtinType args.head? >>= fun numericScale =>
        (args.drop (if numericScale.isNone then 0 else 1)).mapM (fun item => mapType tables packageId fuel (some item))
          >>= fun typeArguments => .ok (MappedType.mk builtinType numericScale none none none typeArguments))
      (numericScaleFor (readNumericScale tables' fuel') builtinType args'.head? >>= fun numericScale =>
        (args'.drop (if numericScale.isNone then 0 else 1)).mapM (fun item => mapType tables' packageId fuel' (some item))
          >>= fun typeArguments => .ok (MappedType.mk builtinType numericScale none none none typeArguments)) := by
  have hhead : Agrees (readNumericScale tables fuel args.head?) (readNumericScale tables' fuel' args'.head?) := by
    cases hscale with
    | nil =>
        show Agrees (readNumericScale tables fuel none) (readNumericScale tables' fuel' none)
        rw [readNumericScale_none hfuel, readNumericScale_none hfuel']
        exact agrees_ok
    | cons hfirst _ => exact hfirst
  refine Agrees.bind ?_ fun numericScale => ?_
  · rw [numericScaleFor, numericScaleFor]
    split
    · exact hhead
    · exact agrees_ok
  · exact Agrees.bind (mapM_same (List.forall₂_drop _ htypes)) fun _ => agrees_ok

/-- Types in two encodings are mapped to the same type, or fail with the same message. -/
theorem mapType_same (hnames : SameNames tables tables') {depth fuel fuel' : Nat} {rawType rawType' : Option Raw.LfType}
    (h : SameType tables.internedTypes tables'.internedTypes depth rawType rawType') (hfuel : depth < fuel) (hfuel' : depth < fuel') :
    Agrees (mapType tables packageId fuel rawType) (mapType tables' packageId fuel' rawType') := by
  induction depth generalizing tables tables' fuel fuel' rawType rawType' with
  | zero => exact h.elim
  | succ depth ih =>
      obtain ⟨fuel, rfl⟩ : ∃ less, fuel = less + 1 := ⟨fuel - 1, by omega⟩
      obtain ⟨fuel', rfl⟩ : ∃ less, fuel' = less + 1 := ⟨fuel' - 1, by omega⟩
      have hpart : ∀ {part part'}, SameType tables.internedTypes tables'.internedTypes depth part part' →
          Agrees (mapType tables packageId fuel part) (mapType tables' packageId fuel' part') :=
        fun hsame => ih hnames hsame (by omega) (by omega)
      have hscale : ∀ {part part'}, SameType tables.internedTypes tables'.internedTypes depth part part' →
          Agrees (readNumericScale tables fuel part) (readNumericScale tables' fuel' part') :=
        fun hsame => readNumericScale_same hsame (by omega) (by omega)
      have hparts : ∀ {args args'}, List.Forall₂ (fun item item' => SameType tables.internedTypes tables'.internedTypes depth
          (some item) (some item')) args args' → Agrees (args.mapM fun item => mapType tables packageId fuel (some item))
            (args'.mapM fun item => mapType tables' packageId fuel' (some item)) :=
        fun hargs => mapM_same (hargs.imp fun _ _ hsame => hpart hsame)
      cases h with
      | none => exact agrees_ok
      | var index hargs =>
          obtain ⟨types, exprs, rfl⟩ := hnames
          exact (hparts hargs).bind fun _ => agrees_ok
      | con tycon hargs =>
          obtain ⟨types, exprs, rfl⟩ := hnames
          refine Agrees.bind ⟨rfl, ends_mapTypeConReference packageId tables tycon⟩ fun _ => ?_
          exact (hparts hargs).bind fun _ => agrees_ok
      | builtin builtin hargs =>
          exact builtinArguments_same (by omega) (by omega) (hargs.imp fun _ _ hsame => hscale hsame)
            (hargs.imp fun _ _ hsame => hpart hsame)
      | «forall» vars hbody =>
          obtain ⟨types, exprs, rfl⟩ := hnames
          refine (hpart hbody).bind fun _ => ?_
          rw [mapTypeParameter_same types exprs]
          exact agrees_ok
      | nat nat => exact agrees_ok
      | tapp hlhs hrhs =>
          refine (hpart hlhs).bind fun lhs => ⟨?_, ends_applyTo (hscale hrhs).2 (hpart hrhs).2 lhs⟩
          exact congrFun (applyTo_same (hscale hrhs).1 (hpart hrhs).1) lhs
      | other => exact agrees_ok
      | noReference hindex =>
          rw [mapType, mapTypeWith, if_neg (by omega), mapType, mapTypeWith, if_neg (by omega)]
          exact agrees_ok
      | referenceLeft hindex hentry =>
          rw [mapType, mapTypeWith, if_pos hindex]
          exact ih hnames hentry (by omega) (by omega)
      | referenceRight hindex hentry =>
          rw [mapType.eq_def tables' packageId (fuel' + 1)]
          simp only [mapTypeWith, if_pos hindex]
          exact ih hnames hentry (by omega) (by omega)
      | appliedLeft happlied hhead hargument =>
          exact applied_same happlied (by omega) (ih hnames hhead (by omega) (by omega)) (hpart hargument) (hscale hargument)
      | appliedRight happlied hhead hargument =>
          refine (applied_same happlied (by omega) ?_ (hpart hargument).symm (hscale hargument).symm).symm
          exact (ih hnames hhead (by omega) (by omega)).symm

end Mapping

end CantonSdk.DamlLf
