import Mathlib.Data.List.Perm.Basic

/-!
# Computations that may throw

Rules for `Except`: what a successful bind, guard or traversal says about its parts, and that whether a
traversal succeeds does not depend on the order of the list.
-/

set_option linter.all false

namespace CantonSdk.Base

variable {ε α β : Type}

theorem bind_eq_ok {x : Except ε α} {f : α → Except ε β} {b : β} :
    x >>= f = .ok b ↔ ∃ a, x = .ok a ∧ f a = .ok b := by
  cases x with
  | error e =>
      constructor
      · intro h
        cases h
      · intro h
        obtain ⟨_, h, _⟩ := h
        cases h
  | ok a =>
      constructor
      · exact fun h => ⟨a, rfl, h⟩
      · intro h
        obtain ⟨_, heq, h⟩ := h
        cases heq
        exact h

/-- Throws unless the condition holds. -/
def guardThat (condition : Bool) (error : ε) : Except ε Unit :=
  if condition then .ok () else .error error

@[simp] theorem guardThat_eq_ok {condition : Bool} {error : ε} {result : Unit} :
    guardThat condition error = .ok result ↔ condition = true := by
  cases condition <;> simp [guardThat]

/-- Checks every entry, in order. -/
def checkAll (check : α → Except ε Unit) : List α → Except ε Unit
  | [] => .ok ()
  | entry :: rest => do
      check entry
      checkAll check rest

theorem checkAll_eq_ok {check : α → Except ε Unit} {list : List α} {result : Unit} :
    checkAll check list = .ok result ↔ ∀ entry ∈ list, check entry = .ok () := by
  induction list with
  | nil => simp [checkAll]
  | cons entry rest ih =>
      rw [checkAll, bind_eq_ok, List.forall_mem_cons, ih]
      constructor
      · intro h
        obtain ⟨_, hentry, hrest⟩ := h
        exact ⟨hentry, hrest⟩
      · intro h
        exact ⟨(), h.1, h.2⟩

/-- The loop that throws at the first entry whose key has been seen. -/
def checkDistinct {κ : Type} [DecidableEq κ] (key : α → κ) (error : α → ε) (seen : List κ) :
    List α → Except ε Unit
  | [] => .ok ()
  | entry :: rest => do
      guardThat (decide (key entry ∉ seen)) (error entry)
      checkDistinct key error (key entry :: seen) rest

theorem checkDistinct_eq_ok {κ : Type} [DecidableEq κ] {key : α → κ} {error : α → ε} {seen : List κ}
    {list : List α} {result : Unit} :
    checkDistinct key error seen list = .ok result ↔
      (list.map key).Nodup ∧ ∀ entry ∈ list, key entry ∉ seen := by
  induction list generalizing seen with
  | nil => simp [checkDistinct]
  | cons entry rest ih =>
      rw [checkDistinct, bind_eq_ok, List.map_cons, List.nodup_cons, List.forall_mem_cons]
      simp only [guardThat_eq_ok, decide_eq_true_eq, exists_and_left, exists_const, ih, List.mem_map,
        List.mem_cons, not_or, not_exists]
      constructor
      · intro h
        obtain ⟨hfresh, hnodup, hunseen⟩ := h
        exact ⟨⟨fun other hother => (hunseen other hother.1).1 hother.2, hnodup⟩, hfresh,
          fun other hother => (hunseen other hother).2⟩
      · intro h
        obtain ⟨⟨hentry, hnodup⟩, hfresh, hunseen⟩ := h
        exact ⟨hfresh, hnodup, fun other hother =>
          ⟨fun hsame => hentry other ⟨hother, hsame⟩, hunseen other hother⟩⟩

/-- The loop that checks every entry and refuses one whose key has been seen; the first check comes before
the key is looked up and the second after. -/
def checkEachDistinct {κ : Type} [DecidableEq κ] (before after : α → Except ε Unit) (key : α → κ)
    (error : α → ε) (seen : List κ) : List α → Except ε Unit
  | [] => .ok ()
  | entry :: rest => do
      before entry
      guardThat (decide (key entry ∉ seen)) (error entry)
      after entry
      checkEachDistinct before after key error (key entry :: seen) rest

theorem checkEachDistinct_eq_ok {κ : Type} [DecidableEq κ] {before after : α → Except ε Unit}
    {key : α → κ} {error : α → ε} {seen : List κ} {list : List α} {result : Unit} :
    checkEachDistinct before after key error seen list = .ok result ↔
      checkDistinct key error seen list = .ok () ∧
        ∀ entry ∈ list, before entry = .ok () ∧ after entry = .ok () := by
  induction list generalizing seen with
  | nil => simp [checkEachDistinct, checkDistinct]
  | cons entry rest ih =>
      rw [checkEachDistinct, checkDistinct, List.forall_mem_cons]
      simp only [bind_eq_ok, exists_const, guardThat_eq_ok, ih]
      constructor
      · intro h
        obtain ⟨_, hbefore, hfresh, _, hafter, hdistinct, hrest⟩ := h
        exact ⟨⟨hfresh, hdistinct⟩, ⟨hbefore, hafter⟩, hrest⟩
      · intro h
        obtain ⟨⟨hfresh, hdistinct⟩, ⟨hbefore, hafter⟩, hrest⟩ := h
        exact ⟨(), hbefore, hfresh, (), hafter, hdistinct, hrest⟩

/-- Keeps the entries that pass a test, testing every entry in order. -/
def filterChecked (test : α → Except ε Bool) : List α → Except ε (List α)
  | [] => .ok []
  | entry :: rest => do
      let keep ← test entry
      let kept ← filterChecked test rest
      return if keep then entry :: kept else kept

/-- `list.map`, with the place of each entry, for a function that may throw. -/
def mapIndexed (f : Nat → α → Except ε β) (index : Nat) : List α → Except ε (List β)
  | [] => .ok []
  | entry :: rest => do
      let value ← f index entry
      let values ← mapIndexed f (index + 1) rest
      return value :: values

/-- A traversal succeeds with the results of its steps. -/
theorem mapM_eq_ok {f : α → Except ε β} {list : List α} {results : List β} :
    list.mapM f = .ok results ↔ List.Forall₂ (fun a b => f a = .ok b) list results := by
  induction list generalizing results with
  | nil =>
      constructor
      · intro h
        cases h
        exact .nil
      · intro h
        cases h
        rfl
  | cons a rest ih =>
      rw [List.mapM_cons, bind_eq_ok]
      constructor
      · intro h
        obtain ⟨b, hb, h⟩ := h
        obtain ⟨bs, hbs, h⟩ := bind_eq_ok.mp h
        cases h
        exact .cons hb (ih.mp hbs)
      · intro h
        cases h with
        | cons hb hbs => exact ⟨_, hb, bind_eq_ok.mpr ⟨_, ih.mpr hbs, rfl⟩⟩

theorem mapIndexed_map {γ : Type} {f : Nat → γ → Except ε β} {g : α → γ} {list : List α} {index : Nat} :
    mapIndexed f index (list.map g) = mapIndexed (fun index entry => f index (g entry)) index list := by
  induction list generalizing index with
  | nil => rfl
  | cons a rest ih => rw [List.map_cons, mapIndexed, mapIndexed, ih]

theorem mapM_eq_mapIndexed {f : α → Except ε β} {list : List α} (index : Nat) :
    list.mapM f = mapIndexed (fun _ => f) index list := by
  induction list generalizing index with
  | nil => rfl
  | cons a rest ih => rw [List.mapM_cons, mapIndexed, ih (index + 1)]

theorem mapIndexed_eq_ok {f : Nat → α → Except ε β} {index : Nat} {list : List α} {results : List β}
    (h : mapIndexed f index list = .ok results) :
    List.Forall₂ (fun a b => ∃ place, f place a = .ok b) list results := by
  induction list generalizing index results with
  | nil =>
      cases h
      exact .nil
  | cons a rest ih =>
      obtain ⟨b, hb, h⟩ := bind_eq_ok.mp h
      obtain ⟨bs, hbs, h⟩ := bind_eq_ok.mp h
      cases h
      exact .cons ⟨index, hb⟩ (ih hbs)

theorem mapM_map_congr {γ : Type} {f : γ → Except ε β} {g : α → γ} {f' : α → Except ε β} {list : List α}
    (h : ∀ a ∈ list, f (g a) = f' a) : (list.map g).mapM f = list.mapM f' := by
  induction list with
  | nil => rfl
  | cons a rest ih =>
      rw [List.forall_mem_cons] at h
      rw [List.map_cons, List.mapM_cons, List.mapM_cons, h.1, ih h.2]

theorem mapM_succeeds {f : α → Except ε β} {list : List α} (h : ∀ a ∈ list, ∃ b, f a = .ok b) :
    ∃ results, list.mapM f = .ok results := by
  induction list with
  | nil => exact ⟨[], rfl⟩
  | cons a rest ih =>
      rw [List.forall_mem_cons] at h
      obtain ⟨⟨b, hb⟩, hrest⟩ := h
      obtain ⟨bs, hbs⟩ := ih hrest
      rw [List.mapM_cons]
      exact ⟨b :: bs, bind_eq_ok.mpr ⟨b, hb, bind_eq_ok.mpr ⟨bs, hbs, rfl⟩⟩⟩

/-- Every result of a traversal comes from an entry. -/
theorem exists_left_of_mem {R : α → β → Prop} {left : List α} {right : List β}
    (h : List.Forall₂ R left right) {b : β} (hb : b ∈ right) : ∃ a ∈ left, R a b := by
  induction h with
  | nil => cases hb
  | cons hfirst _ ih =>
      rcases List.mem_cons.mp hb with rfl | hb
      · exact ⟨_, List.mem_cons_self, hfirst⟩
      · obtain ⟨a, ha, hab⟩ := ih hb
        exact ⟨a, List.mem_cons_of_mem _ ha, hab⟩

theorem exists_right_of_mem {R : α → β → Prop} {left : List α} {right : List β}
    (h : List.Forall₂ R left right) {a : α} (ha : a ∈ left) : ∃ b ∈ right, R a b := by
  obtain ⟨b, hb, hab⟩ := exists_left_of_mem h.flip ha
  exact ⟨b, hb, hab⟩

/-- Traversing a reordered list reorders the results. -/
theorem mapM_perm {f : α → Except ε β} {list other : List α} (hperm : list.Perm other)
    {results : List β} (h : list.mapM f = .ok results) :
    ∃ reordered, other.mapM f = .ok reordered ∧ results.Perm reordered := by
  rw [mapM_eq_ok] at h
  obtain ⟨reordered, hall, hresults⟩ := List.perm_comp_forall₂ hperm.symm h
  exact ⟨reordered, mapM_eq_ok.mpr hall, hresults.symm⟩

theorem toOption_eq_none_iff {x : Except ε α} : x.toOption = none ↔ ∀ a, x ≠ .ok a := by
  cases x <;> simp [Except.toOption]

theorem toOption_eq_some_iff {x : Except ε α} {a : α} : x.toOption = some a ↔ x = .ok a := by
  cases x <;> simp [Except.toOption]

end CantonSdk.Base
