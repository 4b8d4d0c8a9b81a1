import CantonSdk.DamlLf.Mapper.ExpressionTransparency

/-!
# Interning is transparent

A type or an expression of a package whose tables are acyclic is the same as itself, and stays the same when parts of it are
exchanged for references to entries that hold them, or written with the other form of application. So the mapper makes the
same of all encodings.
-/

set_option linter.all false

namespace CantonSdk.DamlLf

open CantonSdk.Base

/-! ## Tables without cycles -/

section Tables

variable {α : Type} (Mentions : α → Int → Prop) (table : List α)

/-- No chain of references, each in the entry of the one before, goes on without end. -/
def Acyclic : Prop := WellFounded fun mentioned index : Int => ∃ entry, entryAt table index = some entry ∧ Mentions entry mentioned

def InRange (term : α) : Prop := ∀ index, Mentions term index → ∃ entry, entryAt table index = some entry

theorem mem_of_entryAt {table : List α} {index : Int} {entry : α} (h : entryAt table index = some entry) : entry ∈ table := by
  rw [entryAt] at h
  split at h
  · exact List.mem_of_getElem? h
  · cases h

end Tables

/-! ## Types -/

def Raw.LfType.parts : Raw.LfType → List Raw.LfType
  | .var _ args | .con _ args | .builtin _ args => args
  | .forall _ body => body.toList
  | .tapp lhs rhs => lhs.toList ++ rhs.toList
  | .nat _ | .internedType _ | .other => []

/-- A reference occurs in the type. -/
inductive MentionsType : Raw.LfType → Int → Prop
  | reference {index : Int} (hindex : 0 ≤ index) : MentionsType (.internedType index) index
  | part {rawType part : Raw.LfType} {index : Int} (hpart : part ∈ rawType.parts) (h : MentionsType part index) :
      MentionsType rawType index

section Types

variable {table table' : List Raw.LfType}

theorem forall₂_self {α : Type} {R : α → α → Prop} {entries : List α} (h : ∀ entry ∈ entries, R entry entry) :
    List.Forall₂ R entries entries := List.forall₂_same.mpr h

theorem TypeStep.mono {Same Same' : Option Raw.LfType → Option Raw.LfType → Prop} (hsame : ∀ a b, Same a b → Same' a b)
    {rawType rawType' : Option Raw.LfType} (h : TypeStep table table' Same rawType rawType') :
    TypeStep table table' Same' rawType rawType' := by
  cases h with
  | none => exact .none
  | var index hargs => exact .var index (hargs.imp fun _ _ h => hsame _ _ h)
  | con tycon hargs => exact .con tycon (hargs.imp fun _ _ h => hsame _ _ h)
  | builtin builtin hargs => exact .builtin builtin (hargs.imp fun _ _ h => hsame _ _ h)
  | «forall» vars hbody => exact .forall vars (hsame _ _ hbody)
  | nat nat => exact .nat nat
  | tapp hlhs hrhs => exact .tapp (hsame _ _ hlhs) (hsame _ _ hrhs)
  | other => exact .other
  | noReference hindex => exact .noReference hindex
  | referenceLeft hindex hentry => exact .referenceLeft hindex (hsame _ _ hentry)
  | referenceRight hindex hentry => exact .referenceRight hindex (hsame _ _ hentry)
  | appliedLeft happlied hhead hargument => exact .appliedLeft happlied (hsame _ _ hhead) (hsame _ _ hargument)
  | appliedRight happlied hhead hargument => exact .appliedRight happlied (hsame _ _ hhead) (hsame _ _ hargument)

theorem SameType.succ {depth : Nat} {rawType rawType' : Option Raw.LfType} (h : SameType table table' depth rawType rawType') :
    SameType table table' (depth + 1) rawType rawType' := by
  induction depth generalizing rawType rawType' with
  | zero => exact h.elim
  | succ depth ih => exact TypeStep.mono (fun _ _ hsame => ih hsame) h

theorem SameType.mono {depth deeper : Nat} (hle : depth ≤ deeper) {rawType rawType' : Option Raw.LfType}
    (h : SameType table table' depth rawType rawType') : SameType table table' deeper rawType rawType' := by
  induction hle with
  | refl => exact h
  | step _ ih => exact ih.succ

/-- Depths for the members of a list have a depth in common. -/
theorem common_depth {α : Type} {P : Nat → α → Prop} (hmono : ∀ depth deeper entry, depth ≤ deeper → P depth entry → P deeper entry)
    (entries : List α) (h : ∀ entry ∈ entries, ∃ depth, P depth entry) : ∃ depth, ∀ entry ∈ entries, P depth entry := by
  induction entries with
  | nil => exact ⟨0, fun _ hmem => absurd hmem List.not_mem_nil⟩
  | cons first rest ih =>
      obtain ⟨depth, hfirst⟩ := h first List.mem_cons_self
      obtain ⟨deeper, hrest⟩ := ih fun entry hmem => h entry (List.mem_cons_of_mem first hmem)
      refine ⟨max depth deeper, List.forall_mem_cons.mpr ⟨hmono _ _ _ (Nat.le_max_left _ _) hfirst, fun entry hmem => ?_⟩⟩
      exact hmono _ _ _ (Nat.le_max_right _ _) (hrest entry hmem)

theorem sizeOf_part_lt {rawType part : Raw.LfType} (hpart : part ∈ rawType.parts) : sizeOf part < sizeOf rawType := by
  cases rawType with
  | var index args =>
      have hlt := List.sizeOf_lt_of_mem hpart
      simp only [Raw.LfType.parts, Raw.LfType.var.sizeOf_spec] at hlt ⊢
      omega
  | con tycon args =>
      have hlt := List.sizeOf_lt_of_mem hpart
      simp only [Raw.LfType.parts, Raw.LfType.con.sizeOf_spec] at hlt ⊢
      omega
  | builtin builtin args =>
      have hlt := List.sizeOf_lt_of_mem hpart
      simp only [Raw.LfType.parts, Raw.LfType.builtin.sizeOf_spec] at hlt ⊢
      omega
  | «forall» vars body =>
      obtain rfl := Option.mem_toList.mp hpart
      simp
      omega
  | tapp lhs rhs =>
      rcases List.mem_append.mp hpart with hmem | hmem
      · obtain rfl := Option.mem_toList.mp hmem
        simp
        omega
      · obtain rfl := Option.mem_toList.mp hmem
        simp
        omega
  | _ => exact absurd hpart List.not_mem_nil

/-- A type whose parts are the same as themselves is so, with its references. -/
theorem sameType_of_parts {rawType : Raw.LfType} {depth : Nat}
    (hparts : ∀ part ∈ rawType.parts, SameType table table' depth (some part) (some part))
    (hentry : ∀ index, rawType = .internedType index → 0 ≤ index →
      SameType table table' depth (entryAt table index) (entryAt table' index)) :
    SameType table table' (depth + 2) (some rawType) (some rawType) := by
  have hnone : SameType table table' (depth + 1) none none := TypeStep.none
  have hoption : ∀ option : Option Raw.LfType, (∀ part ∈ option, SameType table table' depth (some part) (some part)) →
      SameType table table' (depth + 1) option option := by
    intro option hsome
    cases option with
    | none => exact hnone
    | some part => exact (hsome part rfl).succ
  cases rawType with
  | var index args => exact .var index (forall₂_self fun part hmem => (hparts part hmem).succ)
  | con tycon args => exact .con tycon (forall₂_self fun part hmem => (hparts part hmem).succ)
  | builtin builtin args => exact .builtin builtin (forall₂_self fun part hmem => (hparts part hmem).succ)
  | «forall» vars body => exact .forall vars (hoption body fun part hmem => hparts part (Option.mem_toList.mpr hmem))
  | nat nat => exact .nat nat
  | internedType index =>
      by_cases hindex : 0 ≤ index
      · exact .referenceLeft hindex (TypeStep.referenceRight hindex (hentry index rfl hindex))
      · exact .noReference (Int.not_le.mp hindex)
  | tapp lhs rhs =>
      refine .tapp (hoption lhs fun part hmem => hparts part ?_) (hoption rhs fun part hmem => hparts part ?_)
      · exact List.mem_append_left _ (Option.mem_toList.mpr hmem)
      · exact List.mem_append_right _ (Option.mem_toList.mpr hmem)
  | other => exact .other

/-- A type is the same as itself when the entries are that it mentions. -/
theorem sameType_self (rawType : Raw.LfType)
    (hmentioned : ∀ index, MentionsType rawType index →
      ∃ depth, SameType table table' depth (entryAt table index) (entryAt table' index)) :
    ∃ depth, SameType table table' depth (some rawType) (some rawType) := by
  induction hsize : sizeOf rawType using Nat.strong_induction_on generalizing rawType with
  | _ size ih =>
      have hparts : ∀ part ∈ rawType.parts, ∃ depth, SameType table table' depth (some part) (some part) :=
        fun part hpart => ih (sizeOf part) (hsize ▸ sizeOf_part_lt hpart) part
          (fun index hmentions => hmentioned index (.part hpart hmentions)) rfl
      obtain ⟨depth, hdepth⟩ := common_depth (P := fun depth part => SameType table table' depth (some part) (some part))
        (fun _ _ _ hle h => SameType.mono hle h) rawType.parts hparts
      obtain ⟨deeper, hentry⟩ : ∃ deeper, ∀ index, rawType = .internedType index → 0 ≤ index →
          SameType table table' deeper (entryAt table index) (entryAt table' index) := by
        by_cases hreference : ∃ index, rawType = .internedType index ∧ 0 ≤ index
        · obtain ⟨index, rfl, hindex⟩ := hreference
          obtain ⟨deeper, hentry⟩ := hmentioned index (.reference hindex)
          exact ⟨deeper, fun other heq _ => Raw.LfType.internedType.inj heq ▸ hentry⟩
        · exact ⟨0, fun index heq hindex => absurd ⟨index, heq, hindex⟩ hreference⟩
      refine ⟨max depth deeper + 2, sameType_of_parts (fun part hmem => ?_) fun index heq hindex => ?_⟩
      · exact (hdepth part hmem).mono (Nat.le_max_left _ _)
      · exact (hentry index heq hindex).mono (Nat.le_max_right _ _)

/-- Every type in range is the same as itself, also in a longer table. -/
theorem sameType_of_acyclic (hacyclic : Acyclic MentionsType table)
    (hrange : ∀ entry ∈ table, InRange MentionsType table entry)
    (hkeeps : ∀ index entry, entryAt table index = some entry → entryAt table' index = some entry) {rawType : Raw.LfType}
    (htype : InRange MentionsType table rawType) : ∃ depth, SameType table table' depth (some rawType) (some rawType) := by
  have hentries : ∀ index entry, entryAt table index = some entry →
      ∃ depth, SameType table table' depth (entryAt table index) (entryAt table' index) := by
    intro index
    induction index using hacyclic.induction with
    | _ index ih =>
        intro entry hentry
        rw [hentry, hkeeps index entry hentry]
        refine sameType_self entry fun mentioned hmentions => ?_
        obtain ⟨found, hfound⟩ := hrange entry (mem_of_entryAt hentry) mentioned hmentions
        exact ih mentioned ⟨entry, hentry, hmentions⟩ found hfound
  refine sameType_self rawType fun index hmentions => ?_
  obtain ⟨entry, hentry⟩ := htype index hmentions
  exact hentries index entry hentry

end Types

/-! ## Expressions -/

/-- The expressions among the members of a list. -/
def memberParts {ν : Type} (members : List (ν × Option Raw.Expr)) : List Raw.Expr := members.flatMap fun member => member.2.toList

def Raw.Update.parts : Raw.Update → List Raw.Expr
  | .pure expr | .embedExpr expr | .ledgerTimeLt expr | .create _ expr | .fetch _ expr | .createInterface _ expr
  | .fetchInterface _ expr => expr.toList
  | .block bindings body => memberParts bindings ++ body.toList
  | .exercise _ _ cid arg => cid.toList ++ arg.toList
  | .exerciseInterface _ _ cid arg guard => cid.toList ++ (arg.toList ++ guard.toList)
  | .tryCatch tryExpr _ catchExpr => tryExpr.toList ++ catchExpr.toList
  | .getTime | .other _ => []

def Raw.ExprSum.parts : Raw.ExprSum → List Raw.Expr
  | .recCon fields | .structCon fields => memberParts fields
  | .recProj _ expr | .structProj _ expr | .variantCon _ expr | .tyApp expr | .abs _ expr | .tyAbs expr | .optionalSome expr
  | .throw expr => expr.toList
  | .recUpd _ record value | .structUpd _ record value => record.toList ++ value.toList
  | .app function args => function.toList ++ args
  | .case scrut alts => scrut.toList ++ memberParts alts
  | .let_ bindings body => memberParts bindings ++ body.toList
  | .cons front tail => front ++ tail.toList
  | .update rawUpdate => rawUpdate.parts
  | _ => []

/-- A reference occurs in the expression. -/
inductive MentionsExpression : Raw.Expr → Int → Prop
  | reference (index : Int) (location : Option Raw.Location) : MentionsExpression (.mk (.internedExpr index) location) index
  | part {sum : Raw.ExprSum} {part : Raw.Expr} {index : Int} (hpart : part ∈ sum.parts) (h : MentionsExpression part index)
      (location : Option Raw.Location) : MentionsExpression (.mk sum location) index

section Expressions

variable {tables : Raw.Tables} {packageId : String} {table table' : List Raw.Expr}

theorem SameMembers.imp {ν : Type} {Same Same' : Option Raw.Expr → Option Raw.Expr → Prop} (hsame : ∀ a b, Same a b → Same' a b)
    {members members' : List (ν × Option Raw.Expr)} (h : SameMembers Same members members') : SameMembers Same' members members' :=
  List.Forall₂.imp (fun _ _ hmember => ⟨hmember.1, hsame _ _ hmember.2⟩) h

theorem SameAll.imp {Same Same' : Option Raw.Expr → Option Raw.Expr → Prop} (hsame : ∀ a b, Same a b → Same' a b)
    {args args' : List Raw.Expr} (h : SameAll Same args args') : SameAll Same' args args' :=
  List.Forall₂.imp (fun _ _ hitem => hsame _ _ hitem) h

theorem UpdateStep.mono {Same Same' : Option Raw.Expr → Option Raw.Expr → Prop} (hsame : ∀ a b, Same a b → Same' a b)
    {update update' : Raw.Update} (h : UpdateStep Same update update') : UpdateStep Same' update update' := by
  cases h with
  | noParts h => exact .noParts h
  | pure hexpr => exact .pure (hsame _ _ hexpr)
  | block hbindings hbody => exact .block (hbindings.imp hsame) (hsame _ _ hbody)
  | create template hexpr => exact .create template (hsame _ _ hexpr)
  | exercise template choice hcid harg => exact .exercise template choice (hsame _ _ hcid) (hsame _ _ harg)
  | fetch template hcid => exact .fetch template (hsame _ _ hcid)
  | embedExpr hbody => exact .embedExpr (hsame _ _ hbody)
  | createInterface interface hexpr => exact .createInterface interface (hsame _ _ hexpr)
  | exerciseInterface interface choice hcid harg hguard =>
      refine .exerciseInterface interface choice (hsame _ _ hcid) (hsame _ _ harg) ?_
      cases hguard with
      | none => exact .none
      | some hguard => exact .some (hsame _ _ hguard)
  | fetchInterface interface hcid => exact .fetchInterface interface (hsame _ _ hcid)
  | tryCatch binder htry hcatch => exact .tryCatch binder (hsame _ _ htry) (hsame _ _ hcatch)
  | ledgerTimeLt htime => exact .ledgerTimeLt (hsame _ _ htime)

theorem SumStep.mono {Same Same' : Option Raw.Expr → Option Raw.Expr → Prop} (hsame : ∀ a b, Same a b → Same' a b)
    {sum sum' : Raw.ExprSum} (h : SumStep Same sum sum') : SumStep Same' sum sum' := by
  cases h with
  | noParts h => exact .noParts h
  | recCon hfields => exact .recCon (hfields.imp hsame)
  | recProj field hrecord => exact .recProj field (hsame _ _ hrecord)
  | recUpd field hrecord hupdate => exact .recUpd field (hsame _ _ hrecord) (hsame _ _ hupdate)
  | variantCon constructor hargument => exact .variantCon constructor (hsame _ _ hargument)
  | structCon hfields => exact .structCon (hfields.imp hsame)
  | structProj field hstruct => exact .structProj field (hsame _ _ hstruct)
  | structUpd field hstruct hupdate => exact .structUpd field (hsame _ _ hstruct) (hsame _ _ hupdate)
  | app hfunction hargs => exact .app (hsame _ _ hfunction) (hargs.imp hsame)
  | tyApp hexpr => exact .tyApp (hsame _ _ hexpr)
  | abs param hbody => exact .abs param (hsame _ _ hbody)
  | tyAbs hbody => exact .tyAbs (hsame _ _ hbody)
  | case hscrut halts => exact .case (hsame _ _ hscrut) (halts.imp hsame)
  | let_ hbindings hbody => exact .let_ (hbindings.imp hsame) (hsame _ _ hbody)
  | cons hfront htail => exact .cons (hfront.imp hsame) (hsame _ _ htail)
  | update hupdate => exact .update (hupdate.mono hsame)
  | optionalSome hvalue => exact .optionalSome (hsame _ _ hvalue)
  | throw hexception => exact .throw (hsame _ _ hexception)

theorem SameExpression.succ {depth : Nat} {rawExpression rawExpression' : Option Raw.Expr}
    (h : SameExpression tables packageId table table' depth rawExpression rawExpression') :
    SameExpression tables packageId table table' (depth + 1) rawExpression rawExpression' := by
  induction depth generalizing rawExpression rawExpression' with
  | zero => exact h.elim
  | succ depth ih =>
      cases h with
      | none => exact ExpressionStep.none
      | node hsum location => exact ExpressionStep.node (hsum.mono fun _ _ hsame => ih hsame) location
      | reference hentry location => exact ExpressionStep.reference (ih hentry) location
      | referenceLeft hlocation hentry => exact ExpressionStep.referenceLeft hlocation (ih hentry)
      | referenceRight hlocation hentry => exact ExpressionStep.referenceRight hlocation (ih hentry)

theorem SameExpression.mono {depth deeper : Nat} (hle : depth ≤ deeper) {rawExpression rawExpression' : Option Raw.Expr}
    (h : SameExpression tables packageId table table' depth rawExpression rawExpression') :
    SameExpression tables packageId table table' deeper rawExpression rawExpression' := by
  induction hle with
  | refl => exact h
  | step _ ih => exact ih.succ

section Self

variable {Same : Option Raw.Expr → Option Raw.Expr → Prop} (hnone : Same none none)

include hnone

theorem same_option {option : Option Raw.Expr} (h : ∀ part ∈ option.toList, Same (some part) (some part)) : Same option option := by
  cases option with
  | none => exact hnone
  | some part => exact h part List.mem_cons_self

theorem sameMembers_self {ν : Type} {members : List (ν × Option Raw.Expr)}
    (h : ∀ part ∈ memberParts members, Same (some part) (some part)) : SameMembers Same members members :=
  forall₂_self fun member hmember =>
    ⟨rfl, same_option hnone fun part hpart => h part (List.mem_flatMap.mpr ⟨member, hmember, hpart⟩)⟩

theorem updateStep_self {update : Raw.Update} (h : ∀ part ∈ update.parts, Same (some part) (some part)) :
    UpdateStep Same update update := by
  cases update with
  | pure expr => exact .pure (same_option hnone h)
  | block bindings body =>
      have hparts := List.forall_mem_append.mp h
      exact .block (sameMembers_self hnone hparts.1) (same_option hnone hparts.2)
  | create template expr => exact .create template (same_option hnone h)
  | exercise template choice cid arg =>
      have hparts := List.forall_mem_append.mp h
      exact .exercise template choice (same_option hnone hparts.1) (same_option hnone hparts.2)
  | fetch template cid => exact .fetch template (same_option hnone h)
  | getTime => exact .noParts rfl
  | embedExpr body => exact .embedExpr (same_option hnone h)
  | createInterface interface expr => exact .createInterface interface (same_option hnone h)
  | exerciseInterface interface choice cid arg guard =>
      have hparts := List.forall_mem_append.mp h
      have hrest := List.forall_mem_append.mp hparts.2
      refine .exerciseInterface interface choice (same_option hnone hparts.1) (same_option hnone hrest.1) ?_
      cases guard with
      | none => exact .none
      | some guard => exact .some (hrest.2 guard List.mem_cons_self)
  | fetchInterface interface cid => exact .fetchInterface interface (same_option hnone h)
  | tryCatch tryExpr binder catchExpr =>
      have hparts := List.forall_mem_append.mp h
      exact .tryCatch binder (same_option hnone hparts.1) (same_option hnone hparts.2)
  | ledgerTimeLt time => exact .ledgerTimeLt (same_option hnone h)
  | other kind => exact .noParts rfl

theorem sumStep_self {sum : Raw.ExprSum} (hinterned : ∀ index, sum ≠ .internedExpr index)
    (h : ∀ part ∈ sum.parts, Same (some part) (some part)) : SumStep Same sum sum := by
  cases sum with
  | varInternedStr index => exact .noParts rfl
  | val value => exact .noParts rfl
  | builtin name => exact .noParts rfl
  | builtinCon builtinCon => exact .noParts rfl
  | builtinLit literal => exact .noParts rfl
  | recCon fields => exact .recCon (sameMembers_self hnone h)
  | recProj field record => exact .recProj field (same_option hnone h)
  | recUpd field record update =>
      have hparts := List.forall_mem_append.mp h
      exact .recUpd field (same_option hnone hparts.1) (same_option hnone hparts.2)
  | variantCon constructor argument => exact .variantCon constructor (same_option hnone h)
  | enumCon constructor => exact .noParts rfl
  | structCon fields => exact .structCon (sameMembers_self hnone h)
  | structProj field struct => exact .structProj field (same_option hnone h)
  | structUpd field struct update =>
      have hparts := List.forall_mem_append.mp h
      exact .structUpd field (same_option hnone hparts.1) (same_option hnone hparts.2)
  | app function args =>
      have hparts := List.forall_mem_append.mp h
      exact .app (same_option hnone hparts.1) (forall₂_self hparts.2)
  | tyApp expr => exact .tyApp (same_option hnone h)
  | abs param body => exact .abs param (same_option hnone h)
  | tyAbs body => exact .tyAbs (same_option hnone h)
  | case scrut alts =>
      have hparts := List.forall_mem_append.mp h
      exact .case (same_option hnone hparts.1) (sameMembers_self hnone hparts.2)
  | let_ bindings body =>
      have hparts := List.forall_mem_append.mp h
      exact .let_ (sameMembers_self hnone hparts.1) (same_option hnone hparts.2)
  | nil => exact .noParts rfl
  | cons front tail =>
      have hparts := List.forall_mem_append.mp h
      exact .cons (forall₂_self hparts.1) (same_option hnone hparts.2)
  | update update => exact .update (updateStep_self hnone h)
  | optionalNone => exact .noParts rfl
  | optionalSome value => exact .optionalSome (same_option hnone h)
  | throw exception => exact .throw (same_option hnone h)
  | internedExpr index => exact absurd rfl (hinterned index)
  | other kind => exact .noParts rfl

end Self

/-! Parts are smaller. -/

theorem sizeOf_lt_of_mem_toList {option : Option Raw.Expr} {part : Raw.Expr} (h : part ∈ option.toList) :
    sizeOf part < sizeOf option := by
  obtain rfl := Option.mem_toList.mp h
  simp

theorem sizeOf_lt_of_mem_memberParts {ν : Type} [SizeOf ν] {members : List (ν × Option Raw.Expr)} {part : Raw.Expr}
    (h : part ∈ memberParts members) : sizeOf part < sizeOf members := by
  obtain ⟨⟨name, value⟩, hmember, hpart⟩ := List.mem_flatMap.mp h
  have hlt := List.sizeOf_lt_of_mem hmember
  have hvalue := sizeOf_lt_of_mem_toList hpart
  simp only [Prod.mk.sizeOf_spec] at hlt hvalue
  omega

theorem sizeOf_update_part_lt {update : Raw.Update} {part : Raw.Expr} (h : part ∈ update.parts) :
    sizeOf part < sizeOf update := by
  cases update with
  | getTime => exact absurd h List.not_mem_nil
  | other kind => exact absurd h List.not_mem_nil
  | block bindings body =>
      rcases List.mem_append.mp h with hmem | hmem
      · have hlt := sizeOf_lt_of_mem_memberParts hmem
        simp
        omega
      · have hlt := sizeOf_lt_of_mem_toList hmem
        simp
        omega
  | exercise template choice cid arg =>
      rcases List.mem_append.mp h with hmem | hmem
      all_goals
        have hlt := sizeOf_lt_of_mem_toList hmem
        simp
        omega
  | exerciseInterface interface choice cid arg guard =>
      have hmem : part ∈ cid.toList ∨ part ∈ arg.toList ∨ part ∈ guard.toList := by
        simpa only [Raw.Update.parts, List.mem_append] using h
      rcases hmem with hmem | hmem | hmem
      all_goals
        have hlt := sizeOf_lt_of_mem_toList hmem
        simp
        omega
  | tryCatch tryExpr binder catchExpr =>
      rcases List.mem_append.mp h with hmem | hmem
      all_goals
        have hlt := sizeOf_lt_of_mem_toList hmem
        simp
        omega
  | _ =>
      have hlt := sizeOf_lt_of_mem_toList h
      simp
      omega

theorem sizeOf_sum_part_lt {sum : Raw.ExprSum} {part : Raw.Expr} (h : part ∈ sum.parts) : sizeOf part < sizeOf sum := by
  cases sum with
  | recCon fields =>
      have hlt := sizeOf_lt_of_mem_memberParts h
      simp
      omega
  | structCon fields =>
      have hlt := sizeOf_lt_of_mem_memberParts h
      simp
      omega
  | recUpd field record update =>
      rcases List.mem_append.mp h with hmem | hmem
      all_goals
        have hlt := sizeOf_lt_of_mem_toList hmem
        simp
        omega
  | structUpd field struct update =>
      rcases List.mem_append.mp h with hmem | hmem
      all_goals
        have hlt := sizeOf_lt_of_mem_toList hmem
        simp
        omega
  | app function args =>
      rcases List.mem_append.mp h with hmem | hmem
      · have hlt := sizeOf_lt_of_mem_toList hmem
        simp
        omega
      · have hlt := List.sizeOf_lt_of_mem hmem
        simp
        omega
  | case scrut alts =>
      rcases List.mem_append.mp h with hmem | hmem
      · have hlt := sizeOf_lt_of_mem_toList hmem
        simp
        omega
      · have hlt := sizeOf_lt_of_mem_memberParts hmem
        simp
        omega
  | let_ bindings body =>
      rcases List.mem_append.mp h with hmem | hmem
      · have hlt := sizeOf_lt_of_mem_memberParts hmem
        simp
        omega
      · have hlt := sizeOf_lt_of_mem_toList hmem
        simp
        omega
  | cons front tail =>
      rcases List.mem_append.mp h with hmem | hmem
      · have hlt := List.sizeOf_lt_of_mem hmem
        simp
        omega
      · have hlt := sizeOf_lt_of_mem_toList hmem
        simp
        omega
  | update update =>
      have hlt := sizeOf_update_part_lt h
      simp
      omega
  | varInternedStr index => exact absurd h List.not_mem_nil
  | val value => exact absurd h List.not_mem_nil
  | builtin name => exact absurd h List.not_mem_nil
  | builtinCon builtinCon => exact absurd h List.not_mem_nil
  | builtinLit literal => exact absurd h List.not_mem_nil
  | enumCon constructor => exact absurd h List.not_mem_nil
  | nil => exact absurd h List.not_mem_nil
  | optionalNone => exact absurd h List.not_mem_nil
  | internedExpr index => exact absurd h List.not_mem_nil
  | other kind => exact absurd h List.not_mem_nil
  | _ =>
      have hlt := sizeOf_lt_of_mem_toList h
      simp
      omega

/-- An expression is the same as itself when the entries are that it mentions. -/
theorem sameExpression_self (rawExpression : Raw.Expr)
    (hmentioned : ∀ index, MentionsExpression rawExpression index →
      ∃ depth, SameExpression tables packageId table table' depth (entryAt table index) (entryAt table' index)) :
    ∃ depth, SameExpression tables packageId table table' depth (some rawExpression) (some rawExpression) := by
  induction hsize : sizeOf rawExpression using Nat.strong_induction_on generalizing rawExpression with
  | _ size ih =>
      obtain ⟨sum, location⟩ := rawExpression
      by_cases hinterned : ∃ index, sum = .internedExpr index
      · obtain ⟨index, rfl⟩ := hinterned
        obtain ⟨depth, hentry⟩ := hmentioned index (.reference index location)
        exact ⟨depth + 1, ExpressionStep.reference hentry location⟩
      · have hparts : ∀ part ∈ sum.parts, ∃ depth,
            SameExpression tables packageId table table' depth (some part) (some part) := by
          intro part hpart
          refine ih (sizeOf part) ?_ part (fun index hmentions => hmentioned index (.part hpart hmentions location)) rfl
          have hlt := sizeOf_sum_part_lt hpart
          rw [← hsize, Raw.Expr.mk.sizeOf_spec]
          omega
        obtain ⟨depth, hdepth⟩ := common_depth
          (P := fun depth part => SameExpression tables packageId table table' depth (some part) (some part))
          (fun _ _ _ hle h => SameExpression.mono hle h) sum.parts hparts
        have hnone : SameExpression tables packageId table table' (depth + 1) none none := ExpressionStep.none
        refine ⟨depth + 2, ExpressionStep.node (sumStep_self hnone (fun index heq => hinterned ⟨index, heq⟩) ?_) location⟩
        exact fun part hpart => (hdepth part hpart).succ

/-- Every expression in range is the same as itself, also in a longer table. -/
theorem sameExpression_of_acyclic (hacyclic : Acyclic MentionsExpression table)
    (hrange : ∀ entry ∈ table, InRange MentionsExpression table entry)
    (hkeeps : ∀ index entry, entryAt table index = some entry → entryAt table' index = some entry) {rawExpression : Raw.Expr}
    (hexpression : InRange MentionsExpression table rawExpression) :
    ∃ depth, SameExpression tables packageId table table' depth (some rawExpression) (some rawExpression) := by
  have hentries : ∀ index entry, entryAt table index = some entry →
      ∃ depth, SameExpression tables packageId table table' depth (entryAt table index) (entryAt table' index) := by
    intro index
    induction index using hacyclic.induction with
    | _ index ih =>
        intro entry hentry
        rw [hentry, hkeeps index entry hentry]
        refine sameExpression_self entry fun mentioned hmentions => ?_
        obtain ⟨found, hfound⟩ := hrange entry (mem_of_entryAt hentry) mentioned hmentions
        exact ih mentioned ⟨entry, hentry, hmentions⟩ found hfound
  refine sameExpression_self rawExpression fun index hmentions => ?_
  obtain ⟨entry, hentry⟩ := hexpression index hmentions
  exact hentries index entry hentry

end Expressions

/-! ## Encodings of one package -/

section Encodings

/-- The same package with other tables of types and expressions. -/
def Raw.Tables.withEntries (tables : Raw.Tables) (internedTypes : List Raw.LfType) (internedExprs : List Raw.Expr) : Raw.Tables :=
  { tables with internedTypes := internedTypes, internedExprs := internedExprs }

variable (packageId : String) (tables tables' : Raw.Tables)

/-- Types that come from each other by exchanging parts for references to entries that hold them, and forms of application. -/
def SameTypes (rawType rawType' : Option Raw.LfType) : Prop :=
  ∃ depth, SameType tables.internedTypes tables'.internedTypes depth rawType rawType'

/-- Expressions that come from each other by exchanging parts for references to entries that hold them. -/
def SameExpressions (rawExpression rawExpression' : Option Raw.Expr) : Prop :=
  ∃ depth, SameExpression tables packageId tables.internedExprs tables'.internedExprs depth rawExpression rawExpression'

/-- The tables of types and of expressions have no cycles, and every reference in them leads to an entry. -/
structure WellFormed : Prop where
  typesAcyclic : Acyclic MentionsType tables.internedTypes
  typesInRange : ∀ entry ∈ tables.internedTypes, InRange MentionsType tables.internedTypes entry
  exprsAcyclic : Acyclic MentionsExpression tables.internedExprs
  exprsInRange : ∀ entry ∈ tables.internedExprs, InRange MentionsExpression tables.internedExprs entry

/-- Entries may be added to the tables. -/
structure KeepsEntries : Prop where
  types : ∀ index entry, entryAt tables.internedTypes index = some entry → entryAt tables'.internedTypes index = some entry
  exprs : ∀ index entry, entryAt tables.internedExprs index = some entry → entryAt tables'.internedExprs index = some entry

/-- The parts of a package with acyclic tables in range are the same as themselves, and the mapper makes of parts that are the
same, with enough fuel, the same type, and the same expression but for source locations, or fails with the same message. -/
theorem encodings_transparent (internedTypes : List Raw.LfType) (internedExprs : List Raw.Expr) :
    (∀ rawType rawType', SameTypes tables (tables.withEntries internedTypes internedExprs) rawType rawType' →
      ∃ least, ∀ fuel fuel', least ≤ fuel → least ≤ fuel' →
        Agrees (mapType tables packageId fuel rawType)
          (mapType (tables.withEntries internedTypes internedExprs) packageId fuel' rawType'))
      ∧ (∀ rawExpression rawExpression',
        SameExpressions packageId tables (tables.withEntries internedTypes internedExprs) rawExpression rawExpression' →
        ∃ least, ∀ fuel fuel', least ≤ fuel → least ≤ fuel' →
          Related Alike (mapExpression tables packageId fuel rawExpression)
            (mapExpression (tables.withEntries internedTypes internedExprs) packageId fuel' rawExpression'))
      ∧ (WellFormed tables → KeepsEntries tables (tables.withEntries internedTypes internedExprs) →
        (∀ rawType, InRange MentionsType tables.internedTypes rawType →
          SameTypes tables (tables.withEntries internedTypes internedExprs) (some rawType) (some rawType))
          ∧ ∀ rawExpression, InRange MentionsExpression tables.internedExprs rawExpression →
            SameExpressions packageId tables (tables.withEntries internedTypes internedExprs) (some rawExpression)
              (some rawExpression)) := by
  have hnames : SameNames tables (tables.withEntries internedTypes internedExprs) := ⟨internedTypes, internedExprs, rfl⟩
  refine ⟨?_, ?_, fun hwell hkeeps => ⟨fun rawType hrange => ?_, fun rawExpression hrange => ?_⟩⟩
  · rintro rawType rawType' ⟨depth, hsame⟩
    exact ⟨depth + 1, fun fuel fuel' hfuel hfuel' => mapType_same hnames hsame hfuel hfuel'⟩
  · rintro rawExpression rawExpression' ⟨depth, hsame⟩
    exact ⟨depth, fun fuel fuel' hfuel hfuel' => mapExpression_same hnames hsame hfuel hfuel'⟩
  · exact sameType_of_acyclic hwell.typesAcyclic hwell.typesInRange hkeeps.types hrange
  · exact sameExpression_of_acyclic hwell.exprsAcyclic hwell.exprsInRange hkeeps.exprs hrange

/-- The compiler interns the scale and the type of `Numeric`, or writes them out. -/
example : SameType [.nat 10, .builtin .numeric []] [] 4 (some (.tapp (some (.internedType 1)) (some (.internedType 0))))
    (some (.builtin .numeric [.nat 10])) := by
  have hhead : SameType [.nat 10, .builtin .numeric []] [] 3 (some (.internedType 1)) (some (.builtin .numeric [])) :=
    TypeStep.referenceLeft (by decide) (TypeStep.builtin .numeric .nil)
  have hscale : SameType [.nat 10, .builtin .numeric []] [] 3 (some (.internedType 0)) (some (.nat 10)) :=
    TypeStep.referenceLeft (by decide) (TypeStep.nat 10)
  exact TypeStep.appliedRight (.builtin .numeric [] (.nat 10) fun _ => rfl) hhead hscale

end Encodings

end CantonSdk.DamlLf
