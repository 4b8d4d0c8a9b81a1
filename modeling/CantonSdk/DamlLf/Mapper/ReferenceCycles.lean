import CantonSdk.DamlLf.Mapper.MapperSteps
import Mathlib.Data.Finset.Sum

/-!
# When the mapper ends

Kinds are mapped with the indices visited so far; types, scales and expressions are not. So the mapper follows a reference
that leads back to itself without end, and ends for every package where it comes upon no such reference.
-/

set_option linter.all false

namespace CantonSdk.DamlLf

open CantonSdk.Base CantonSdk.Base.Traversal

/-! ## Smaller jobs and references -/

section Measures

variable (packageId : String) (rawPackage : Raw.Package)

noncomputable def sizeOfJob : Job → Nat
  | .package => sizeOf rawPackage.modules + 1
  | .type rawType => sizeOf rawType
  | .expression rawExpression => sizeOf rawExpression

/-- The entry that a job stands for: of the types on the left, of the expressions on the right. -/
def referenceOf : Job → Option (Nat ⊕ Nat)
  | .type (some (.internedType index)) =>
      if 0 ≤ index ∧ index.toNat < rawPackage.internedTypes.length then some (.inl index.toNat) else none
  | .expression (some (.mk (.internedExpr index) _)) =>
      if 0 ≤ index ∧ index.toNat < rawPackage.internedExprs.length then some (.inr index.toNat) else none
  | _ => none

@[simp] theorem sizeOfJob_type (rawType : Option Raw.LfType) : sizeOfJob rawPackage (.type rawType) = sizeOf rawType := rfl

@[simp] theorem sizeOfJob_expression (rawExpression : Option Raw.Expr) :
    sizeOfJob rawPackage (.expression rawExpression) = sizeOf rawExpression := rfl

/-- The jobs that are called are smaller than the bound. -/
def CallsBelow (bound : Nat) (list : List (Step Job)) : Prop :=
  ∀ called, .call called ∈ list → sizeOfJob rawPackage called < bound

variable {rawPackage} {bound : Nat} {front rest : List (Step Job)} {job : Job}

theorem callsBelow_nil : CallsBelow rawPackage bound [] := fun _ hmem => absurd hmem List.not_mem_nil

theorem CallsBelow.check {passes : Bool} (h : CallsBelow rawPackage bound rest) :
    CallsBelow rawPackage bound (.check passes :: rest) := by
  intro called hmem
  cases hmem with
  | tail _ hmem => exact h called hmem

theorem CallsBelow.lookup {α : Type} (x : Mapping α) (h : CallsBelow rawPackage bound rest) :
    CallsBelow rawPackage bound (lookup x :: rest) := h.check

theorem CallsBelow.call (hjob : sizeOfJob rawPackage job < bound) (h : CallsBelow rawPackage bound rest) :
    CallsBelow rawPackage bound (.call job :: rest) := by
  intro called hmem
  cases hmem with
  | head _ => exact hjob
  | tail _ hmem => exact h called hmem

theorem callsBelow_lookup {α : Type} (x : Mapping α) : CallsBelow rawPackage bound [DamlLf.lookup x] :=
  callsBelow_nil.lookup x

theorem callsBelow_call (hjob : sizeOfJob rawPackage job < bound) : CallsBelow rawPackage bound [.call job] :=
  callsBelow_nil.call hjob

theorem CallsBelow.append (hfront : CallsBelow rawPackage bound front) (hrest : CallsBelow rawPackage bound rest) :
    CallsBelow rawPackage bound (front ++ rest) := by
  intro called hmem
  rcases List.mem_append.mp hmem with hmem | hmem
  · exact hfront called hmem
  · exact hrest called hmem

theorem CallsBelow.mono {more : Nat} (h : CallsBelow rawPackage bound rest) (hle : bound ≤ more) :
    CallsBelow rawPackage more rest :=
  fun called hmem => Nat.lt_of_lt_of_le (h called hmem) hle

/-- What is done for each member of a list is bounded when it is for a member of its size. -/
theorem callsBelow_flatMap {ι : Type} [SizeOf ι] {entries : List ι} {stepsOf : ι → List (Step Job)}
    (h : ∀ entry, CallsBelow rawPackage (sizeOf entry + 2) (stepsOf entry)) :
    CallsBelow rawPackage (sizeOf entries + 1) (entries.flatMap stepsOf) := by
  intro called hmem
  obtain ⟨entry, hentry, hcalled⟩ := List.mem_flatMap.mp hmem
  have hlt := List.sizeOf_lt_of_mem hentry
  have hsize := h entry called hcalled
  omega

theorem callsBelow_callTypes (args : List Raw.LfType) : CallsBelow rawPackage (sizeOf args + 1) (callTypes args) :=
  callsBelow_flatMap fun item => callsBelow_call (by simp +arith)

theorem callsBelow_callExpressions (args : List Raw.Expr) :
    CallsBelow rawPackage (sizeOf args + 1) (callExpressions args) :=
  callsBelow_flatMap fun item => callsBelow_call (by simp +arith)

theorem sizeOf_head?_lt (args : List Raw.LfType) : sizeOf args.head? < sizeOf args + 1 := by
  cases args with
  | nil => simp
  | cons first rest => simp +arith

theorem sizeOf_tail_le (args : List Raw.LfType) : sizeOf args.tail ≤ sizeOf args := by
  cases args with
  | nil => simp
  | cons first rest => simp

theorem callsBelow_stepsOfType {rawType : Option Raw.LfType} (hreference : referenceOf rawPackage (.type rawType) = none) :
    CallsBelow rawPackage (sizeOf rawType) (stepsOfType packageId rawPackage.toTables rawType) := by
  cases rawType with
  | none => exact callsBelow_nil
  | some rawType =>
      cases rawType with
      | var index args => exact (callsBelow_callTypes args).mono (by simp +arith)
      | con tycon args => exact ((callsBelow_callTypes args).mono (by simp +arith)).lookup _
      | builtin builtin args =>
          have hhead := sizeOf_head?_lt args
          have htail := sizeOf_tail_le args
          have hsize : sizeOf args + 1 < sizeOf (some (Raw.LfType.builtin builtin args)) := by
            simp +arith
          have hscale : sizeOfJob rawPackage (.type args.head?) < sizeOf (some (Raw.LfType.builtin builtin args)) := by
            show sizeOf args.head? < _
            omega
          rw [stepsOfType]
          split
          · exact ((callsBelow_callTypes args.tail).mono (by omega)).call hscale
          · exact (callsBelow_callTypes args).mono (by omega)
      | «forall» vars body => exact callsBelow_call (by simp +arith)
      | nat nat => exact callsBelow_nil
      | internedType index =>
          rw [stepsOfType]
          split
          · next hindex =>
              have hrange : ¬ index.toNat < rawPackage.internedTypes.length := fun hrange => by
                rw [referenceOf, if_pos ⟨hindex, hrange⟩] at hreference
                cases hreference
              rw [entryAt, if_pos hindex, List.getElem?_eq_none (Nat.le_of_not_lt hrange)]
              exact callsBelow_call (by simp)
          · exact callsBelow_nil
      | tapp lhs rhs => exact (callsBelow_call (by simp +arith)).call (by simp +arith)
      | other => exact callsBelow_nil

variable (tables : Raw.Tables)

theorem callsBelow_stepsOfNamed {nameInternedStr : Option Int} {rawValue : Option Raw.Expr} (h : sizeOf rawValue < bound) :
    CallsBelow rawPackage bound (stepsOfNamed tables nameInternedStr rawValue) := (callsBelow_call h).lookup _

theorem callsBelow_stepsOfFields (fields : List (Int × Option Raw.Expr)) :
    CallsBelow rawPackage (sizeOf fields + 1) (stepsOfFields tables fields) := by
  refine callsBelow_flatMap fun field => callsBelow_stepsOfNamed tables ?_
  obtain ⟨name, value⟩ := field
  simp only [Prod.mk.sizeOf_spec]
  omega

theorem callsBelow_stepsOfBindings (bindings : List (Option Int × Option Raw.Expr)) :
    CallsBelow rawPackage (sizeOf bindings + 1) (stepsOfBindings tables bindings) := by
  refine callsBelow_flatMap fun binding => callsBelow_stepsOfNamed tables ?_
  obtain ⟨name, value⟩ := binding
  simp only [Prod.mk.sizeOf_spec]
  omega

theorem callsBelow_callOptional (rawExpression : Option Raw.Expr) :
    CallsBelow rawPackage (sizeOf rawExpression + 1) (callOptional rawExpression) := by
  cases rawExpression with
  | none => exact callsBelow_nil
  | some rawExpression => exact callsBelow_call (by simp)

theorem callsBelow_stepsOfUpdate (update : Raw.Update) :
    CallsBelow rawPackage (sizeOf update) (stepsOfUpdate packageId tables update) := by
  cases update with
  | pure expr => exact callsBelow_call (by simp)
  | block bindings body =>
      exact ((callsBelow_stepsOfBindings tables bindings).mono (by simp +arith)).append (callsBelow_call (by simp))
  | create template expr => exact (callsBelow_call (by simp)).lookup _
  | exercise template choice cid arg =>
      exact (((callsBelow_call (by simp)).call (by simp +arith)).lookup _).lookup _
  | fetch template cid => exact (callsBelow_call (by simp)).lookup _
  | getTime => exact callsBelow_nil
  | embedExpr body => exact callsBelow_call (by simp)
  | createInterface interface expr => exact (callsBelow_call (by simp)).lookup _
  | exerciseInterface interface choice cid arg guard =>
      refine ((((callsBelow_call (by simp +arith)).call (by simp +arith)).lookup _).lookup _).append ?_
      exact (callsBelow_callOptional guard).mono (by simp +arith)
  | fetchInterface interface cid => exact (callsBelow_call (by simp)).lookup _
  | tryCatch tryExpr binder catchExpr =>
      exact ((callsBelow_call (by simp)).lookup _).call (by simp +arith)
  | ledgerTimeLt time => exact callsBelow_call (by simp)
  | other kind => exact callsBelow_nil

theorem callsBelow_stepsOfSum {sum : Raw.ExprSum} (hinterned : ∀ index, sum ≠ .internedExpr index) :
    CallsBelow rawPackage (sizeOf sum + 1) (stepsOfSum packageId tables sum) := by
  cases sum with
  | varInternedStr index => exact callsBelow_lookup _
  | val value => exact callsBelow_lookup _
  | builtin name => exact callsBelow_nil
  | builtinCon builtinCon => exact callsBelow_nil
  | builtinLit literal => exact callsBelow_lookup _
  | recCon fields => exact (callsBelow_stepsOfFields tables fields).mono (by simp)
  | recProj field record => exact callsBelow_stepsOfNamed tables (by simp +arith)
  | recUpd field record update => exact ((callsBelow_call (by simp +arith)).call (by simp +arith)).lookup _
  | variantCon constructor argument => exact callsBelow_stepsOfNamed tables (by simp +arith)
  | enumCon constructor => exact callsBelow_lookup _
  | structCon fields => exact (callsBelow_stepsOfFields tables fields).mono (by simp)
  | structProj field struct => exact callsBelow_stepsOfNamed tables (by simp +arith)
  | structUpd field struct update => exact ((callsBelow_call (by simp +arith)).call (by simp +arith)).lookup _
  | app function args => exact ((callsBelow_callExpressions args).mono (by simp)).call (by simp +arith)
  | tyApp expr => exact callsBelow_call (by simp +arith)
  | abs param body => exact (callsBelow_call (by simp +arith)).lookup _
  | tyAbs body => exact callsBelow_call (by simp +arith)
  | case scrut alts =>
      refine CallsBelow.call (by simp +arith) (CallsBelow.mono (callsBelow_flatMap fun alternative => ?_) (by simp))
      obtain ⟨pattern, body⟩ := alternative
      exact (callsBelow_call (by simp +arith)).lookup _
  | let_ bindings body =>
      exact ((callsBelow_stepsOfBindings tables bindings).mono (by simp +arith)).append (callsBelow_call (by simp +arith))
  | nil => exact callsBelow_nil
  | cons front tail =>
      exact ((callsBelow_callExpressions front).mono (by simp +arith)).append (callsBelow_call (by simp +arith))
  | update update => exact (callsBelow_stepsOfUpdate packageId tables update).mono (by simp +arith)
  | optionalNone => exact callsBelow_nil
  | optionalSome value => exact callsBelow_call (by simp +arith)
  | throw exception => exact callsBelow_call (by simp +arith)
  | internedExpr index => exact absurd rfl (hinterned index)
  | other kind => exact callsBelow_nil

theorem callsBelow_stepsOfExpression {rawExpression : Option Raw.Expr}
    (hreference : referenceOf rawPackage (.expression rawExpression) = none) :
    CallsBelow rawPackage (sizeOf rawExpression) (stepsOfExpression packageId rawPackage.toTables rawExpression) := by
  cases rawExpression with
  | none => exact callsBelow_nil
  | some rawExpression =>
      obtain ⟨sum, location⟩ := rawExpression
      refine CallsBelow.append ?_ (callsBelow_lookup _)
      by_cases hinterned : ∀ index, sum ≠ .internedExpr index
      · exact (callsBelow_stepsOfSum packageId rawPackage.toTables hinterned).mono (by simp +arith)
      · simp only [not_forall, not_not] at hinterned
        obtain ⟨index, rfl⟩ := hinterned
        have hmissing : entryAt rawPackage.internedExprs index = none := by
          rw [entryAt]
          split
          · next hindex =>
              refine List.getElem?_eq_none (Nat.le_of_not_lt fun hrange => ?_)
              rw [referenceOf, if_pos ⟨hindex, hrange⟩] at hreference
              cases hreference
          · rfl
        rw [stepsOfSum, hmissing]
        exact callsBelow_call (by simp)

theorem callsBelow_stepsOfField {nameInternedStr : Int} {rawType : Option Raw.LfType} (h : sizeOf rawType < bound) :
    CallsBelow rawPackage bound (stepsOfField tables nameInternedStr rawType) := (callsBelow_call h).lookup _

theorem callsBelow_fieldTypes (fields : List (Int × Option Raw.LfType)) :
    CallsBelow rawPackage (sizeOf fields + 1) (fields.flatMap fun item => stepsOfField tables item.1 item.2) := by
  refine callsBelow_flatMap fun field => callsBelow_stepsOfField tables ?_
  obtain ⟨name, type⟩ := field
  simp only [Prod.mk.sizeOf_spec]
  omega

theorem callsBelow_stepsOfDataType (rawDataType : Raw.DefDataType) :
    CallsBelow rawPackage (sizeOf rawDataType + 2) (stepsOfDataType tables rawDataType) := by
  obtain ⟨name, params, serializable, dataCons⟩ := rawDataType
  refine CallsBelow.append ?_ ?_
  · cases dataCons with
    | record fields => exact (callsBelow_fieldTypes tables fields).mono (by simp +arith)
    | variant fields => exact (callsBelow_fieldTypes tables fields).mono (by simp +arith)
    | enum constructors => exact callsBelow_lookup _
    | other => exact callsBelow_nil
  · split
    · exact callsBelow_lookup _
    · exact callsBelow_nil

theorem callsBelow_stepsOfValue (rawValue : Raw.DefValue) :
    CallsBelow rawPackage (sizeOf rawValue + 2) (stepsOfValue tables rawValue) := by
  obtain ⟨nameWithType, expr⟩ := rawValue
  refine CallsBelow.lookup _ (CallsBelow.call ?_ (callsBelow_call (by simp +arith)))
  cases nameWithType with
  | none => simp
  | some nameWithType =>
      obtain ⟨name, type⟩ := nameWithType
      simp
      omega

theorem callsBelow_stepsOfChoice (rawChoice : Raw.TemplateChoice) :
    CallsBelow rawPackage (sizeOf rawChoice + 2) (stepsOfChoice tables rawChoice) := by
  obtain ⟨name, consuming, selfBinder, argBinder, retType, update⟩ := rawChoice
  refine CallsBelow.append ((callsBelow_lookup _).lookup _) (CallsBelow.append ?_ (CallsBelow.call ?_ ?_))
  · cases argBinder with
    | none => exact callsBelow_nil.check
    | some argBinder =>
        obtain ⟨binder, type⟩ := argBinder
        exact callsBelow_stepsOfField tables (by simp +arith)
  · simp
    omega
  · exact (callsBelow_callOptional update).mono (by simp +arith)

theorem callsBelow_stepsOfTemplate (dataTypes : List Raw.DefDataType) (rawTemplate : Raw.DefTemplate) :
    CallsBelow rawPackage (sizeOf rawTemplate + 2) (stepsOfTemplate tables dataTypes rawTemplate) := by
  obtain ⟨name, param, choices⟩ := rawTemplate
  refine CallsBelow.lookup _ (CallsBelow.check (CallsBelow.lookup _ ?_))
  exact (callsBelow_flatMap fun choice => callsBelow_stepsOfChoice tables choice).mono (by simp +arith)

theorem callsBelow_stepsOfModule (rawModule : Raw.Module) :
    CallsBelow rawPackage (sizeOf rawModule + 2) (stepsOfModule tables rawModule) := by
  obtain ⟨name, dataTypes, values, templates⟩ := rawModule
  refine CallsBelow.lookup _ (CallsBelow.append ?_ (CallsBelow.append ?_ ?_))
  · exact (callsBelow_flatMap fun item => callsBelow_stepsOfDataType tables item).mono (by simp +arith)
  · exact (callsBelow_flatMap fun item => callsBelow_stepsOfValue tables item).mono (by simp +arith)
  · exact (callsBelow_flatMap fun item => callsBelow_stepsOfTemplate tables dataTypes item).mono (by simp +arith)

theorem callsBelow_stepsOfPackage (rawPackage : Raw.Package) :
    CallsBelow rawPackage (sizeOf rawPackage.modules + 1) (stepsOfPackage rawPackage) :=
  ((callsBelow_flatMap fun item => callsBelow_stepsOfModule rawPackage.toTables item).lookup _).lookup _

/-- What a reference leads to. -/
def entryOf (rawPackage : Raw.Package) : Nat ⊕ Nat → Job
  | .inl index => .type rawPackage.internedTypes[index]?
  | .inr index => .expression rawPackage.internedExprs[index]?

variable (rawPackage)

/-- A reference calls its entry first, and nothing else. -/
theorem steps_of_reference {index : Nat ⊕ Nat} (hreference : referenceOf rawPackage job = some index) :
    ∃ rest, steps packageId rawPackage job = .call (entryOf rawPackage index) :: rest ∧ ∀ called, .call called ∉ rest := by
  rw [referenceOf.eq_def] at hreference
  split at hreference
  · next typeIndex =>
      split at hreference
      · next hindex =>
          cases hreference
          refine ⟨[], ?_, fun called => List.not_mem_nil⟩
          rw [steps, stepsOfType, if_pos hindex.1, entryAt, if_pos hindex.1, entryOf]
      · cases hreference
  · next exprIndex location =>
      split at hreference
      · next hindex =>
          cases hreference
          refine ⟨[lookup (mapExpressionSourceLocation rawPackage.toTables packageId location)], ?_, fun called hmem => ?_⟩
          · rw [steps, stepsOfExpression, stepsOfSum, entryAt, if_pos hindex.1, entryOf]
            rfl
          · cases List.mem_singleton.mp hmem
      · cases hreference
  · cases hreference

theorem entryOf_of_comes {index : Nat ⊕ Nat} {called : Job} (hreference : referenceOf rawPackage job = some index)
    (hcomes : Comes (steps packageId rawPackage) job called) : called = entryOf rawPackage index := by
  obtain ⟨rest, hsteps, hrest⟩ := steps_of_reference packageId rawPackage hreference
  obtain ⟨front, back, heq, -⟩ := hcomes
  have hmem : .call called ∈ steps packageId rawPackage job := by rw [heq]; simp
  rw [hsteps] at hmem
  exact Step.call.inj ((List.mem_cons.mp hmem).resolve_right (hrest called))

/-- At most the size of the entries of the tables. -/
noncomputable def entryBound : Nat := sizeOf rawPackage.internedTypes + sizeOf rawPackage.internedExprs + 1

theorem sizeOf_entry_le {α : Type} [SizeOf α] (table : List α) (index : Nat) : sizeOf table[index]? ≤ sizeOf table + 1 := by
  cases hentry : table[index]? with
  | none => simp
  | some entry =>
      have hlt := List.sizeOf_lt_of_mem (List.mem_of_getElem? hentry)
      simp only [Option.some.sizeOf_spec]
      omega

theorem size_entryOf_le (index : Nat ⊕ Nat) : sizeOfJob rawPackage (entryOf rawPackage index) ≤ entryBound rawPackage := by
  cases index with
  | inl index =>
      have hle := sizeOf_entry_le rawPackage.internedTypes index
      rw [entryOf, entryBound, sizeOfJob_type]
      omega
  | inr index =>
      have hle := sizeOf_entry_le rawPackage.internedExprs index
      rw [entryOf, entryBound, sizeOfJob_expression]
      omega

def entryIndices : Finset (Nat ⊕ Nat) :=
  (Finset.range rawPackage.internedTypes.length).disjSum (Finset.range rawPackage.internedExprs.length)

theorem mem_entryIndices {index : Nat ⊕ Nat} (hreference : referenceOf rawPackage job = some index) :
    index ∈ entryIndices rawPackage := by
  rw [referenceOf.eq_def] at hreference
  split at hreference
  · split at hreference
    · next hindex =>
        cases hreference
        exact Finset.inl_mem_disjSum.mpr (Finset.mem_range.mpr hindex.2)
    · cases hreference
  · split at hreference
    · next hindex =>
        cases hreference
        exact Finset.inr_mem_disjSum.mpr (Finset.mem_range.mpr hindex.2)
    · cases hreference
  · cases hreference

theorem follows : Follows (sizeOfJob rawPackage) (referenceOf rawPackage) (entryBound rawPackage) (entryIndices rawPackage)
    (steps packageId rawPackage) where
  smaller := by
    rintro job called hreference ⟨front, back, heq, -⟩
    have hmem : .call called ∈ steps packageId rawPackage job := by rw [heq]; simp
    cases job with
    | package => exact callsBelow_stepsOfPackage rawPackage called hmem
    | type rawType => exact callsBelow_stepsOfType packageId hreference called hmem
    | expression rawExpression => exact callsBelow_stepsOfExpression packageId hreference called hmem
  bounded := by
    intro job called hreference hcomes
    obtain ⟨index, hindex⟩ := Option.ne_none_iff_exists'.mp hreference
    rw [entryOf_of_comes packageId rawPackage hindex hcomes]
    exact size_entryOf_le rawPackage index
  indexed := fun job index hreference => mem_entryIndices rawPackage hreference
  same := by
    intro job other called hreference hsame hcomes
    obtain ⟨index, hindex⟩ := Option.ne_none_iff_exists'.mp hreference
    obtain ⟨rest, hsteps, -⟩ := steps_of_reference packageId rawPackage (hsame ▸ hindex)
    rw [entryOf_of_comes packageId rawPackage hindex hcomes]
    exact ⟨[], rest, hsteps, fun _ hmem => absurd hmem List.not_mem_nil⟩

end Measures

/-! ## Packages that the mapper ends on -/

theorem ends_iff_statusOf {α : Type} {x : Mapping α} : Ends x ↔ Traversal.statusOf x ≠ .gaveUp := by
  cases x with
  | ok a => exact iff_of_true ends_ok Status.noConfusion
  | error stop =>
      cases stop with
      | failed message => exact iff_of_true ends_decodeException Status.noConfusion
      | gaveUp => exact iff_of_false (fun h => h rfl) fun h => h rfl

/-- A package is mapped, or an exception thrown, exactly when no reference that the mapper comes upon leads back to itself. -/
theorem mapPackage_ends_iff (packageId : String) (rawPackage : Raw.Package) :
    (∃ fuel, Ends (mapPackage fuel packageId rawPackage))
      ↔ ¬ LeadsBack (referenceOf rawPackage) (steps packageId rawPackage) .package := by
  rw [← finishes_iff (follows packageId rawPackage)]
  constructor
  · rintro ⟨fuel, h⟩
    exact ⟨fuel + 1, by rwa [ends_iff_statusOf, statusOf_mapPackage] at h⟩
  · rintro ⟨fuel, h⟩
    cases fuel with
    | zero => exact absurd h not_finishes_zero
    | succ fuel => exact ⟨fuel, by rwa [ends_iff_statusOf, statusOf_mapPackage]⟩

/-- One value, whose type is the first entry of a table of types that starts with a reference to its first entry. -/
def selfReferringPackage : Raw.Package where
  internedStrings := ["main", "1.0.0"]
  internedDottedNames := [[0]]
  internedTypes := [.internedType 0]
  internedKinds := []
  internedExprs := []
  importedPackages := none
  metadata := some (0, 1)
  modules := [{ nameInternedDname := 0, dataTypes := [], values := [⟨some (0, some (.internedType 0)), none⟩], templates := [] }]

theorem selfReference_gaveUp (fuel : Nat) :
    mapType selfReferringPackage.toTables "package" fuel (some (.internedType 0)) = .error .gaveUp := by
  induction fuel with
  | zero => rfl
  | succ fuel ih => exact ih

/-- The type mapper keeps no visited references. -/
theorem selfReferringPackage_never_ends : ¬ ∃ fuel, Ends (mapPackage fuel "package" selfReferringPackage) := by
  rintro ⟨fuel, h⟩
  rw [ends_iff_statusOf, statusOf_mapPackage] at h
  have hpackage : status (steps "package" selfReferringPackage) (fuel + 1) .package
      = (status (steps "package" selfReferringPackage) fuel (.type (some (.internedType 0)))).andThen
        (runSteps (status (steps "package" selfReferringPackage) fuel) [.call (.expression none)]) := rfl
  rw [hpackage, ← statusOf_mapType, selfReference_gaveUp] at h
  exact h rfl

end CantonSdk.DamlLf
