import CantonSdk.Query.Canonical.Evaluator
import CantonSdk.Query.Canonical.QueryNormalizer
import Mathlib.Data.List.Pairwise

/-!
# The order of rows

What the relations declare: numeric fields are ordered as integers, dates by time and all other fields as text, nulls
come last, and the stable order decides between rows that tie otherwise. The comparator of the evaluator decides by the
values instead of the fields. It gives the declared order exactly where no text of digits tells on a text field.
-/

set_option linter.all false

namespace CantonSdk.Query.Canonical

open CantonSdk.Base

/-! ## Keys -/

/-- What decides where a value comes: numbers come before texts, and what is missing comes last. -/
structure OrderKey where
  missing : Bool
  worded : Bool
  number : Int
  text : String

namespace OrderKey

def absent : OrderKey := ⟨true, false, 0, ""⟩

def ofNumber (number : Int) : OrderKey := ⟨false, false, number, ""⟩

def ofText (text : String) : OrderKey := ⟨false, true, 0, text⟩

def cmp : OrderKey → OrderKey → Ordering :=
  compareLex (compareOn missing) (compareLex (compareOn worded) (compareLex (compareOn number) (compareKey compareText text)))

instance : Std.TransCmp cmp :=
  inferInstanceAs (Std.TransCmp (compareLex (compareOn missing)
    (compareLex (compareOn worded) (compareLex (compareOn number) (compareKey compareText text)))))

theorem eq_of_cmp {left right : OrderKey} (h : cmp left right = .eq) : left = right := by
  obtain ⟨missing, worded, number, text⟩ := left
  obtain ⟨missing', worded', number', text'⟩ := right
  simp only [cmp, compareLex, compareOn, compareKey, Ordering.then_eq_eq] at h
  obtain ⟨hmissing, hworded, hnumber, htext⟩ := h
  cases Std.LawfulEqOrd.eq_of_compare hmissing
  cases Std.LawfulEqOrd.eq_of_compare hworded
  cases Std.LawfulEqOrd.eq_of_compare hnumber
  cases eq_of_compareText htext
  rfl

theorem cmp_eq_iff {left right : OrderKey} : cmp left right = .eq ↔ left = right := by
  constructor
  · exact eq_of_cmp
  · intro heq
    rw [heq]
    exact Std.ReflCmp.compare_self

theorem cmp_ofNumber (left right : Int) : cmp (ofNumber left) (ofNumber right) = compare left right := by
  simp only [cmp, compareLex, compareOn, compareKey, ofNumber, Std.ReflOrd.compare_self, Ordering.eq_then]
  rw [show compareText "" "" = .eq from rfl, Ordering.then_eq]

theorem cmp_ofText (left right : String) : cmp (ofText left) (ofText right) = compareText left right := by
  simp only [cmp, compareLex, compareOn, compareKey, ofText, Std.ReflOrd.compare_self, Ordering.eq_then]

theorem cmp_ofNumber_ofText (left : Int) (right : String) : cmp (ofNumber left) (ofText right) = .lt := rfl

theorem cmp_ofText_ofNumber (left : String) (right : Int) : cmp (ofText left) (ofNumber right) = .gt := rfl

end OrderKey

/-! ## The declared order -/

/-- What the field holds, as its relation declares it. -/
def fieldKind (relation : QueryRelation) (field : String) : ScalarKind :=
  (scalarKind (queryRelationMetadata relation) field).toOption.getD .json

section Order

variable (runtime : JsRuntime)

/-- JSON has no declared type: its numbers are ordered as numbers and all else as text. -/
def kindKey (kind : ScalarKind) (value : QueryValue) : OrderKey :=
  match kind with
  | .numericString | .json => (numeric value).elim (.ofText (jsString runtime value)) .ofNumber
  | .timestamp =>
      match value with
      | .date milliseconds => .ofNumber milliseconds
      | value => .ofText (jsString runtime value)
  | .string | .boolean | .stringArray | .binary => .ofText (jsString runtime value)

def valueKey (kind : ScalarKind) (value : Option QueryValue) : OrderKey :=
  match value with
  | none | some .null => .absent
  | some value => kindKey runtime kind value

/-- The key of a row at the path of an order. -/
def rowKey (relation : QueryRelation) (path : List String) (row : QueryRow) : OrderKey :=
  valueKey runtime (fieldKind relation (path.headD "")) (row.atPath path)

def directed {α : Type} (compare : α → α → Ordering) (direction : QueryOrderDirection) (left right : α) : Ordering :=
  match direction with
  | .asc => compare left right
  | .desc => compare right left

instance {α : Type} (compare : α → α → Ordering) [Std.TransCmp compare] (direction : QueryOrderDirection) :
    Std.TransCmp (directed compare direction) :=
  match direction with
  | .asc => inferInstanceAs (Std.TransCmp compare)
  | .desc => inferInstanceAs (Std.TransCmp fun left right => compare right left)

/-- The declared order of rows. -/
def declaredOrder (relation : QueryRelation) : List NormalizedOrder → QueryRow → QueryRow → Ordering
  | [] => fun _ _ => .eq
  | order :: rest =>
      compareLex (directed (compareKey OrderKey.cmp (rowKey runtime relation order.path)) order.direction)
        (declaredOrder relation rest)

/-! ## Rows -/

/-- A value that is not null has the type of its field. -/
def hasKind : ScalarKind → QueryValue → Bool
  | .string, .text _ => true
  | .numericString, .text value => (integerText value).isSome
  | .timestamp, .date _ => true
  | .boolean, .bool _ => true
  | .stringArray, .array _ => true
  | .binary, .bytes _ => true
  | .json, value => !isDate value
  | _, _ => false

/-- The fields that a row can be ordered by hold null or what the relation declares. -/
def isTyped (relation : QueryRelation) (row : QueryRow) : Bool :=
  (queryRelationMetadata relation).orderFields.all fun field =>
    (row.atPath [field]).all fun value => decide (value = .null) || hasKind (fieldKind relation field) value

/-- Digits do not tell between two values of a text field, and come before all else in a JSON field. -/
def Aligned (kind : ScalarKind) (left right : QueryValue) : Prop :=
  match kind, numeric left, numeric right with
  | .string, some m, some n => compare m n = compareText (jsString runtime left) (jsString runtime right)
  | .string, some m, none =>
      compareMixed m (jsString runtime right) = compareText (jsString runtime left) (jsString runtime right)
  | .string, none, some n =>
      (compareMixed n (jsString runtime left)).swap = compareText (jsString runtime left) (jsString runtime right)
  | .json, some m, none => compareMixed m (jsString runtime right) = .lt
  | .json, none, some n => compareMixed n (jsString runtime left) = .lt
  | _, _, _ => True

/-- The values that rows have at the fields by which they can be ordered do not mix digits and other texts. -/
def TextsAligned (relation : QueryRelation) (rows : List QueryRow) : Prop :=
  ∀ field ∈ (queryRelationMetadata relation).orderFields, ∀ left ∈ rows, ∀ right ∈ rows, ∀ leftValue rightValue,
    left.atPath [field] = some leftValue → right.atPath [field] = some rightValue → leftValue ≠ .null →
    rightValue ≠ .null → Aligned runtime (fieldKind relation field) leftValue rightValue

/-- No two rows have the same values at all fields of the stable order. -/
def Distinguished (relation : QueryRelation) (rows : List QueryRow) : Prop :=
  rows.Pairwise fun left right => ∃ field ∈ (queryRelationMetadata relation).stableOrder,
    rowKey runtime relation [field] left ≠ rowKey runtime relation [field] right

/-- Every order that a query can ask for, with the stable order behind it, is the declared total order on the rows. -/
structure TotallyOrdered (relation : QueryRelation) (rows : List QueryRow) (orderBy : List NormalizedOrder) : Prop where
  declared : ∀ left ∈ rows, ∀ right ∈ rows,
    compareRows runtime orderBy left right = declaredOrder runtime relation orderBy left right
  oriented : ∀ left ∈ rows, ∀ right ∈ rows,
    compareRows runtime orderBy left right = (compareRows runtime orderBy right left).swap
  transitive : ∀ left ∈ rows, ∀ middle ∈ rows, ∀ right ∈ rows, (compareRows runtime orderBy left middle).isLE →
    (compareRows runtime orderBy middle right).isLE → (compareRows runtime orderBy left right).isLE
  untied : rows.Pairwise fun left right => compareRows runtime orderBy left right ≠ .eq
  paged : ∀ (keep : QueryRow → Bool) (other : List QueryRow), rows.Perm other → ∀ skip take,
    slice (sortBy (compareRows runtime orderBy) (other.filter keep)) skip take
      = slice (sortBy (compareRows runtime orderBy) (rows.filter keep)) skip take

/-! ## One field -/

theorem compareValues_present {left right : QueryValue} (hleft : left ≠ .null) (hright : right ≠ .null) :
    compareValues runtime (some left) (some right) =
      if isDate left || isDate right then
        match timeOf runtime left, timeOf runtime right with
        | some leftTime, some rightTime => some (compare leftTime rightTime)
        | _, _ => none
      else
        match numeric left, numeric right with
        | some leftValue, some rightValue => some (compare leftValue rightValue)
        | some leftValue, none => some (compareMixed leftValue (jsString runtime right))
        | none, some rightValue => some (compareMixed rightValue (jsString runtime left)).swap
        | none, none => some (compareText (jsString runtime left) (jsString runtime right)) := by
  cases left with
  | null => exact absurd rfl hleft
  | _ =>
      cases right with
      | null => exact absurd rfl hright
      | _ => rfl

/-- Values of a field compare as their keys do, where they are aligned and only there. -/
theorem compareValues_eq_iff {kind : ScalarKind} {left right : QueryValue} (hleft : left ≠ .null)
    (hright : right ≠ .null) (hleftKind : hasKind kind left = true) (hrightKind : hasKind kind right = true) :
    ∃ ordering, compareValues runtime (some left) (some right) = some ordering ∧
      (ordering = OrderKey.cmp (kindKey runtime kind left) (kindKey runtime kind right) ↔
        Aligned runtime kind left right) := by
  rw [compareValues_present runtime hleft hright]
  cases kind with
  | json =>
      have hdates : (isDate left || isDate right) = false := by
        rw [hasKind, Bool.not_eq_true'] at hleftKind hrightKind
        rw [hleftKind, hrightKind]
        rfl
      rw [hdates, kindKey, kindKey]
      unfold Aligned
      cases numeric left with
      | some m =>
          cases numeric right with
          | some n => exact ⟨_, rfl, iff_of_true (OrderKey.cmp_ofNumber m n).symm trivial⟩
          | none => exact ⟨_, rfl, Iff.rfl⟩
      | none =>
          cases numeric right with
          | some n => exact ⟨_, rfl, Ordering.swap_eq_gt⟩
          | none => exact ⟨_, rfl, iff_of_true (OrderKey.cmp_ofText _ _).symm trivial⟩
  | string =>
      cases left with
      | text t =>
          cases right with
          | text u =>
              rw [kindKey, kindKey, OrderKey.cmp_ofText]
              unfold Aligned
              rw [numeric, numeric]
              cases integerText t with
              | some m => cases integerText u <;> exact ⟨_, rfl, Iff.rfl⟩
              | none =>
                  cases integerText u with
                  | some n => exact ⟨_, rfl, Iff.rfl⟩
                  | none => exact ⟨_, rfl, iff_of_true rfl trivial⟩
          | _ => cases hrightKind
      | _ => cases hleftKind
  | numericString =>
      cases left with
      | text t =>
          cases right with
          | text u =>
              obtain ⟨m, hm⟩ := Option.isSome_iff_exists.mp hleftKind
              obtain ⟨n, hn⟩ := Option.isSome_iff_exists.mp hrightKind
              rw [kindKey, kindKey, numeric, numeric, hm, hn]
              exact ⟨_, rfl, iff_of_true (OrderKey.cmp_ofNumber m n).symm trivial⟩
          | _ => cases hrightKind
      | _ => cases hleftKind
  | timestamp =>
      cases left with
      | date m =>
          cases right with
          | date n => exact ⟨_, rfl, iff_of_true (OrderKey.cmp_ofNumber m n).symm trivial⟩
          | _ => cases hrightKind
      | _ => cases hleftKind
  | boolean =>
      cases left with
      | bool m =>
          cases right with
          | bool n => exact ⟨_, rfl, iff_of_true (OrderKey.cmp_ofText _ _).symm trivial⟩
          | _ => cases hrightKind
      | _ => cases hleftKind
  | stringArray =>
      cases left with
      | array m =>
          cases right with
          | array n => exact ⟨_, rfl, iff_of_true (OrderKey.cmp_ofText _ _).symm trivial⟩
          | _ => cases hrightKind
      | _ => cases hleftKind
  | binary =>
      cases left with
      | bytes m =>
          cases right with
          | bytes n => exact ⟨_, rfl, iff_of_true (OrderKey.cmp_ofText _ _).symm trivial⟩
          | _ => cases hrightKind
      | _ => cases hleftKind

/-- The rows are aligned at a field. -/
def AlignedAt (relation : QueryRelation) (field : String) (left right : QueryRow) : Prop :=
  ∀ leftValue rightValue, left.atPath [field] = some leftValue → right.atPath [field] = some rightValue →
    leftValue ≠ .null → rightValue ≠ .null → Aligned runtime (fieldKind relation field) leftValue rightValue

theorem hasKind_of_isTyped {relation : QueryRelation} {row : QueryRow} (h : isTyped relation row = true) {field : String}
    (hfield : field ∈ (queryRelationMetadata relation).orderFields) {value : QueryValue}
    (hvalue : row.atPath [field] = some value) (hne : value ≠ .null) : hasKind (fieldKind relation field) value = true := by
  have hall := List.all_eq_true.mp h field hfield
  rw [hvalue, Option.all_some, Bool.or_eq_true, decide_eq_true_iff] at hall
  exact hall.resolve_left hne

theorem missing_or_present (value : Option QueryValue) :
    (present value = false ∧ (∀ kind, valueKey runtime kind value = .absent) ∧ ∀ found, value = some found → found = .null) ∨
      ∃ found, value = some found ∧ found ≠ .null ∧ present value = true ∧
        ∀ kind, valueKey runtime kind value = kindKey runtime kind found := by
  cases value with
  | none => exact .inl ⟨rfl, fun _ => rfl, nofun⟩
  | some found =>
      cases found with
      | null => exact .inl ⟨rfl, fun _ => rfl, fun _ heq => (Option.some.inj heq).symm⟩
      | _ => exact .inr ⟨_, rfl, nofun, rfl, fun _ => rfl⟩

theorem kindKey_missing (kind : ScalarKind) (value : QueryValue) : (kindKey runtime kind value).missing = false := by
  cases kind with
  | numericString | json =>
      rw [kindKey]
      cases numeric value <;> rfl
  | timestamp => cases value <;> rfl
  | string | boolean | stringArray | binary => rfl

/-- Rows compare at a field as declared, where they are aligned there and only there. -/
theorem postgresCompare_eq_iff {relation : QueryRelation} {field : String}
    (hfield : field ∈ (queryRelationMetadata relation).orderFields) {left right : QueryRow}
    (hleft : isTyped relation left = true) (hright : isTyped relation right = true) :
    ∃ ordering, postgresCompare runtime (left.atPath [field]) (right.atPath [field]) .asc = some ordering ∧
      postgresCompare runtime (left.atPath [field]) (right.atPath [field]) .desc = some ordering.swap ∧
      (ordering = OrderKey.cmp (rowKey runtime relation [field] left) (rowKey runtime relation [field] right) ↔
        AlignedAt runtime relation field left right) := by
  rw [rowKey, rowKey, postgresCompare, postgresCompare, compareNulls, compareNulls]
  have hl : ∀ value, left.atPath [field] = some value → value ≠ .null → hasKind (fieldKind relation field) value = true :=
    fun _ => hasKind_of_isTyped hleft hfield
  have hr : ∀ value, right.atPath [field] = some value → value ≠ .null → hasKind (fieldKind relation field) value = true :=
    fun _ => hasKind_of_isTyped hright hfield
  rw [AlignedAt]
  generalize left.atPath [field] = leftValue at hl ⊢
  generalize right.atPath [field] = rightValue at hr ⊢
  rcases missing_or_present runtime leftValue with ⟨hnone, hkey, hnull⟩ | ⟨found, hfound, hne, hsome, hkey⟩
  · have haligned : ∀ l r, leftValue = some l → rightValue = some r → l ≠ .null → r ≠ .null →
        Aligned runtime (fieldKind relation field) l r := fun l _ heq _ hnot _ => absurd (hnull l heq) hnot
    rw [hkey, hnone]
    rcases missing_or_present runtime rightValue with ⟨hnone', hkey', _⟩ | ⟨found', _, _, hsome', hkey'⟩
    · rw [hkey', hnone']
      exact ⟨.eq, rfl, rfl, iff_of_true rfl haligned⟩
    · rw [hkey', hsome']
      refine ⟨.gt, rfl, rfl, iff_of_true ?_ haligned⟩
      rw [OrderKey.cmp, compareLex, compareOn, kindKey_missing]
      rfl
  · rw [hkey, hsome]
    rcases missing_or_present runtime rightValue with ⟨hnone', hkey', hnull'⟩ | ⟨found', hfound', hne', hsome', hkey'⟩
    · rw [hkey', hnone']
      refine ⟨.lt, rfl, rfl, iff_of_true ?_ fun _ r _ heq _ hnot => absurd (hnull' r heq) hnot⟩
      rw [OrderKey.cmp, compareLex, compareOn, kindKey_missing]
      rfl
    · obtain ⟨ordering, hcompare, hiff⟩ := compareValues_eq_iff runtime hne hne' (hl found hfound hne) (hr found' hfound' hne')
      rw [hkey', hsome', hfound, hfound', hcompare]
      refine ⟨ordering, rfl, rfl, hiff.trans ?_⟩
      constructor
      · intro haligned l r hl hr _ _
        cases hl
        cases hr
        exact haligned
      · exact fun haligned => haligned found found' rfl rfl hne hne'

/-! ## Lists of orders -/

instance declaredOrder_trans (relation : QueryRelation) (orderBy : List NormalizedOrder) :
    Std.TransCmp (declaredOrder runtime relation orderBy) := by
  induction orderBy with
  | nil => exact { eq_swap := rfl, isLE_trans := fun _ _ => rfl }
  | cons order rest ih =>
      have hrest := ih
      exact inferInstanceAs (Std.TransCmp (compareLex (directed _ order.direction) (declaredOrder runtime relation rest)))

theorem compareRows_cons {order : NormalizedOrder} {rest : List NormalizedOrder} {left right : QueryRow}
    {ordering : Ordering}
    (h : postgresCompare runtime (left.atPath order.path) (right.atPath order.path) order.direction = some ordering) :
    compareRows runtime (order :: rest) left right = ordering.then (compareRows runtime rest left right) := by
  rw [compareRows, h]
  cases ordering <;> rfl

/-- The first field decides, in its direction, and then the rest does. -/
theorem compareRows_field {relation : QueryRelation} {field : String}
    (hfield : field ∈ (queryRelationMetadata relation).orderFields) {left right : QueryRow}
    (hleft : isTyped relation left = true) (hright : isTyped relation right = true) (rest : List NormalizedOrder) :
    ∃ ordering,
      compareRows runtime (⟨[field], .asc⟩ :: rest) left right = ordering.then (compareRows runtime rest left right) ∧
      compareRows runtime (⟨[field], .desc⟩ :: rest) left right
        = ordering.swap.then (compareRows runtime rest left right) ∧
      (ordering = OrderKey.cmp (rowKey runtime relation [field] left) (rowKey runtime relation [field] right) ↔
        AlignedAt runtime relation field left right) := by
  obtain ⟨ordering, hasc, hdesc, hiff⟩ := postgresCompare_eq_iff runtime hfield hleft hright
  exact ⟨ordering, compareRows_cons runtime hasc, compareRows_cons runtime hdesc, hiff⟩

theorem declaredOrder_asc (relation : QueryRelation) (path : List String) (rest : List NormalizedOrder)
    (left right : QueryRow) : declaredOrder runtime relation (⟨path, .asc⟩ :: rest) left right
      = (OrderKey.cmp (rowKey runtime relation path left) (rowKey runtime relation path right)).then
        (declaredOrder runtime relation rest left right) := rfl

theorem declaredOrder_desc (relation : QueryRelation) (path : List String) (rest : List NormalizedOrder)
    (left right : QueryRow) : declaredOrder runtime relation (⟨path, .desc⟩ :: rest) left right
      = (OrderKey.cmp (rowKey runtime relation path left) (rowKey runtime relation path right)).swap.then
        (declaredOrder runtime relation rest left right) := by
  have hswap : OrderKey.cmp (rowKey runtime relation path right) (rowKey runtime relation path left)
      = (OrderKey.cmp (rowKey runtime relation path left) (rowKey runtime relation path right)).swap :=
    Std.OrientedCmp.eq_swap
  rw [← hswap]
  rfl

/-- Aligned rows compare as declared. -/
theorem compareRows_eq {relation : QueryRelation} {orderBy : List NormalizedOrder}
    (hfields : ∀ order ∈ orderBy, ∃ field ∈ (queryRelationMetadata relation).orderFields, order.path = [field])
    {left right : QueryRow} (hleft : isTyped relation left = true) (hright : isTyped relation right = true)
    (haligned : ∀ field ∈ (queryRelationMetadata relation).orderFields, AlignedAt runtime relation field left right) :
    compareRows runtime orderBy left right = declaredOrder runtime relation orderBy left right := by
  induction orderBy with
  | nil => rfl
  | cons order rest ih =>
      rw [List.forall_mem_cons] at hfields
      obtain ⟨⟨field, hfield, hpath⟩, hrest⟩ := hfields
      obtain ⟨path, direction⟩ := order
      cases hpath
      obtain ⟨ordering, hasc, hdesc, hiff⟩ := compareRows_field runtime hfield hleft hright rest
      have hordering := hiff.mpr (haligned field hfield)
      cases direction with
      | asc => rw [hasc, declaredOrder_asc, hordering, ih hrest]
      | desc => rw [hdesc, declaredOrder_desc, hordering, ih hrest]

/-- An ordering that agrees with another in both directions, whatever comes behind it, is that ordering. -/
theorem eq_of_both_directions : ∀ {ordering declared behind behindDeclared : Ordering},
    ordering.then behind = declared.then behindDeclared →
    ordering.swap.then behind = declared.swap.then behindDeclared → ordering = declared := by
  decide

/-- Rows that compare as declared in both directions are aligned. -/
theorem aligned_of_both {relation : QueryRelation} {field : String}
    (hfield : field ∈ (queryRelationMetadata relation).orderFields) {left right : QueryRow}
    (hleft : isTyped relation left = true) (hright : isTyped relation right = true) {rest : List NormalizedOrder}
    (hboth : ∀ direction, compareRows runtime (⟨[field], direction⟩ :: rest) left right
      = declaredOrder runtime relation (⟨[field], direction⟩ :: rest) left right) :
    AlignedAt runtime relation field left right := by
  obtain ⟨ordering, hasc, hdesc, hiff⟩ := compareRows_field runtime hfield hleft hright rest
  have hup := hboth .asc
  have hdown := hboth .desc
  rw [hasc, declaredOrder_asc] at hup
  rw [hdesc, declaredOrder_desc] at hdown
  exact hiff.mp (eq_of_both_directions hup hdown)

end Order

/-! ## What the normalizer makes of an order -/

/-- One field of the stable order is appended, if it is not there. -/
def appendField (orders : List NormalizedOrder) (field : String) : List NormalizedOrder :=
  if orders.any fun order => decide (order.path = [field]) then orders
  else orders ++ [{ path := [field], direction := .asc }]

theorem appendStable_eq (metadata : QueryRelationMetadata) (requested : List NormalizedOrder) :
    appendStable metadata requested = metadata.stableOrder.foldl appendField requested := rfl

theorem mem_appendField {orders : List NormalizedOrder} {field : String} {order : NormalizedOrder}
    (h : order ∈ appendField orders field) : order ∈ orders ∨ order.path = [field] := by
  unfold appendField at h
  split at h
  · exact .inl h
  · rcases List.mem_append.mp h with hold | hnew
    · exact .inl hold
    · rw [List.mem_singleton.mp hnew]
      exact .inr rfl

/-- What is appended behind an order does not depend on its direction. -/
theorem appendField_cons (path : List String) (behind : List NormalizedOrder) (field : String) :
    ∃ more, ∀ direction, appendField (⟨path, direction⟩ :: behind) field = ⟨path, direction⟩ :: more := by
  simp only [appendField, List.any_cons]
  by_cases hfound : (decide (path = [field]) || behind.any fun order => decide (order.path = [field])) = true
  · exact ⟨behind, fun _ => if_pos hfound⟩
  · exact ⟨behind ++ [⟨[field], .asc⟩], fun _ => if_neg hfound⟩

theorem appendField_subset {orders : List NormalizedOrder} {field : String} : orders ⊆ appendField orders field := by
  unfold appendField
  split
  · exact List.Subset.refl _
  · exact List.subset_append_left _ _

theorem exists_appendField (orders : List NormalizedOrder) (field : String) :
    ∃ order ∈ appendField orders field, order.path = [field] := by
  unfold appendField
  split
  · next hany =>
      obtain ⟨order, horder, hpath⟩ := List.any_eq_true.mp hany
      exact ⟨order, horder, of_decide_eq_true hpath⟩
  · exact ⟨_, List.mem_append_right _ (List.mem_singleton_self _), rfl⟩

theorem foldl_appendField {allowed : List String} {fields : List String} {orders : List NormalizedOrder}
    (horders : ∀ order ∈ orders, ∃ field ∈ allowed, order.path = [field]) (hfields : ∀ field ∈ fields, field ∈ allowed) :
    (∀ order ∈ fields.foldl appendField orders, ∃ field ∈ allowed, order.path = [field]) ∧
      orders ⊆ fields.foldl appendField orders ∧
      ∀ field ∈ fields, ∃ order ∈ fields.foldl appendField orders, order.path = [field] := by
  induction fields generalizing orders with
  | nil => exact ⟨horders, List.Subset.refl _, nofun⟩
  | cons field rest ih =>
      rw [List.forall_mem_cons] at hfields
      have hnext : ∀ order ∈ appendField orders field, ∃ field ∈ allowed, order.path = [field] := by
        intro order horder
        rcases mem_appendField horder with hold | hnew
        · exact horders order hold
        · exact ⟨field, hfields.1, hnew⟩
      obtain ⟨hall, hkept, hstable⟩ := ih hnext hfields.2
      refine ⟨hall, fun _ horder => hkept (appendField_subset horder), ?_⟩
      rw [List.forall_mem_cons]
      obtain ⟨order, horder, hpath⟩ := exists_appendField orders field
      exact ⟨⟨order, hkept horder, hpath⟩, hstable⟩

theorem stableOrder_orderable (relation : QueryRelation) :
    ∀ field ∈ (queryRelationMetadata relation).stableOrder, field ∈ (queryRelationMetadata relation).orderFields := by
  cases relation <;> decide

theorem normalizeOrder_eq_ok {relation : QueryRelation} {entry : QueryInput} {order : NormalizedOrder}
    (h : normalizeOrder relation entry = .ok order) :
    ∃ field ∈ (queryRelationMetadata relation).orderFields, order.path = [field] := by
  rw [normalizeOrder] at h
  obtain ⟨fields, _, h⟩ := bind_eq_ok.mp h
  obtain ⟨_, hfield, h⟩ := bind_eq_ok.mp h
  rw [guardThat_eq_ok, decide_eq_true_iff] at hfield
  split at h
  · cases h
    exact ⟨_, hfield, rfl⟩
  · cases h
    exact ⟨_, hfield, rfl⟩
  · cases h

/-- A normalized order with the stable order behind it is about fields that can be ordered, and about all those of the
stable order. -/
theorem normalizeOrderBy_fields {relation : QueryRelation} {value : QueryInput} {orderBy : List NormalizedOrder}
    (h : normalizeOrderBy relation value true = .ok orderBy) :
    (∀ order ∈ orderBy, ∃ field ∈ (queryRelationMetadata relation).orderFields, order.path = [field]) ∧
      ∀ field ∈ (queryRelationMetadata relation).stableOrder, ∃ order ∈ orderBy, order.path = [field] := by
  unfold normalizeOrderBy at h
  obtain ⟨requested, hrequested, h⟩ := bind_eq_ok.mp h
  cases h
  have hfields : ∀ order ∈ requested, ∃ field ∈ (queryRelationMetadata relation).orderFields, order.path = [field] := by
    split at hrequested
    · cases hrequested
      exact nofun
    · obtain ⟨_, _, hrequested⟩ := bind_eq_ok.mp hrequested
      intro order horder
      obtain ⟨entry, _, hentry⟩ := exists_left_of_mem (mapM_eq_ok.mp hrequested) horder
      exact normalizeOrder_eq_ok hentry
    · cases hrequested
  obtain ⟨hall, _, hstable⟩ := foldl_appendField hfields (stableOrder_orderable relation)
  exact ⟨hall, hstable⟩

/-- `orderBy: [{ field: direction }]`. -/
def orderByField (field : String) (direction : QueryOrderDirection) : QueryInput :=
  .array [.object true [(field, .text (if direction = .asc then "asc" else "desc"))]]

/-- A query may ask for any field that can be ordered, and the rest of the order does not depend on the direction. -/
theorem normalizeOrderBy_field {relation : QueryRelation} {field : String}
    (hfield : field ∈ (queryRelationMetadata relation).orderFields) :
    ∃ rest, ∀ direction,
      normalizeOrderBy relation (orderByField field direction) true = .ok (⟨[field], direction⟩ :: rest) := by
  have hsame : ∀ (fields : List String) (behind : List NormalizedOrder), ∃ rest, ∀ direction,
      fields.foldl appendField (⟨[field], direction⟩ :: behind) = ⟨[field], direction⟩ :: rest := by
    intro fields
    induction fields with
    | nil => exact fun behind => ⟨behind, fun _ => rfl⟩
    | cons other fields ih =>
        intro behind
        obtain ⟨more, hmore⟩ := appendField_cons [field] behind other
        obtain ⟨rest, hrest⟩ := ih more
        exact ⟨rest, fun direction => by rw [List.foldl_cons, hmore, hrest]⟩
  obtain ⟨rest, hrest⟩ := hsame (queryRelationMetadata relation).stableOrder []
  refine ⟨rest, fun direction => ?_⟩
  have hrequested : normalizeOrder relation
      (.object true [(field, .text (if direction = .asc then "asc" else "desc"))]) = .ok ⟨[field], direction⟩ := by
    have horderable : guardThat (decide (field ∈ (queryRelationMetadata relation).orderFields))
        (field ++ " is not orderable on " ++ relation.name) = .ok () := guardThat_eq_ok.mpr (decide_eq_true hfield)
    cases direction with
    | asc => exact bind_eq_ok.mpr ⟨_, rfl, bind_eq_ok.mpr ⟨_, horderable, rfl⟩⟩
    | desc => exact bind_eq_ok.mpr ⟨_, rfl, bind_eq_ok.mpr ⟨_, horderable, rfl⟩⟩
  refine bind_eq_ok.mpr ⟨[⟨[field], direction⟩], ?_, congrArg Except.ok (hrest direction)⟩
  exact bind_eq_ok.mpr ⟨(), rfl, mapM_eq_ok.mpr (.cons hrequested .nil)⟩

/-! ## Total orders -/

section Total

variable {runtime : JsRuntime} {relation : QueryRelation} {rows : List QueryRow}

/-- Rows tie in the declared order when they have the same keys throughout. -/
theorem declaredOrder_eq_iff {orderBy : List NormalizedOrder} {left right : QueryRow} :
    declaredOrder runtime relation orderBy left right = .eq ↔
      ∀ order ∈ orderBy, rowKey runtime relation order.path left = rowKey runtime relation order.path right := by
  induction orderBy with
  | nil => exact iff_of_true rfl nofun
  | cons order rest ih =>
      rw [List.forall_mem_cons, ← ih, declaredOrder, compareLex, Ordering.then_eq_eq]
      refine and_congr_left fun _ => ?_
      obtain ⟨path, direction⟩ := order
      cases direction with
      | asc => exact OrderKey.cmp_eq_iff
      | desc => exact OrderKey.cmp_eq_iff.trans eq_comm

theorem totallyOrdered_of_aligned {orderBy : List NormalizedOrder}
    (hdeclared : ∀ left ∈ rows, ∀ right ∈ rows,
      compareRows runtime orderBy left right = declaredOrder runtime relation orderBy left right)
    (huntied : rows.Pairwise fun left right => declaredOrder runtime relation orderBy left right ≠ .eq) :
    TotallyOrdered runtime relation rows orderBy := by
  have hswap : ∀ left right : QueryRow, declaredOrder runtime relation orderBy left right
      = (declaredOrder runtime relation orderBy right left).swap := fun left right => Std.OrientedCmp.eq_swap
  have hstrict : ∀ left ∈ rows, ∀ right ∈ rows, declaredOrder runtime relation orderBy left right = .eq →
      left = right := by
    intro left hleft right hright heq
    by_contra hne
    have : Std.Symm fun left right : QueryRow => declaredOrder runtime relation orderBy left right ≠ .eq := by
      constructor
      intro a b hab hba
      rw [hswap, hba] at hab
      exact hab rfl
    exact huntied.forall hleft hright hne heq
  have hsort : ∀ list : List QueryRow, list ⊆ rows →
      sortBy (compareRows runtime orderBy) list = sortBy (declaredOrder runtime relation orderBy) list :=
    fun list hlist => sortBy_congr fun a ha b hb => hdeclared a (hlist ha) b (hlist hb)
  constructor
  · exact hdeclared
  · intro left hleft right hright
    rw [hdeclared left hleft right hright, hdeclared right hright left hleft, hswap]
  · intro left hleft middle hmiddle right hright hfirst hsecond
    rw [hdeclared left hleft middle hmiddle] at hfirst
    rw [hdeclared middle hmiddle right hright] at hsecond
    rw [hdeclared left hleft right hright]
    exact Std.TransCmp.isLE_trans hfirst hsecond
  · exact huntied.imp_of_mem fun hleft hright hne => by rwa [hdeclared _ hleft _ hright]
  · intro keep other hperm skip take
    have hrows : rows.filter keep ⊆ rows := List.filter_subset_self _
    have hother : other.filter keep ⊆ rows := fun a ha => hperm.mem_iff.mpr (List.mem_of_mem_filter ha)
    rw [hsort _ hother, hsort _ hrows]
    rw [sortBy_eq_of_perm (fun a ha b hb => hstrict a (hrows ha) b (hrows hb)) (hperm.filter keep)]

/-- `findMany` takes a page of the rows that it keeps, sorted by the comparator. -/
theorem map_slice_orderRows (dataset : CompiledDataset) (orderBy : List NormalizedOrder) (kept : List Nat) (skip : Nat)
    (take : Option Nat) : (slice (orderRows runtime dataset relation orderBy kept) skip take).map (dataset.row relation)
      = slice (sortBy (compareRows runtime orderBy) (kept.map (dataset.row relation))) skip take := by
  rw [← map_sortBy, orderRows]
  cases take with
  | none => exact List.map_drop
  | some take => rw [slice, slice, List.map_take, List.map_drop]

end Total

end CantonSdk.Query.Canonical
