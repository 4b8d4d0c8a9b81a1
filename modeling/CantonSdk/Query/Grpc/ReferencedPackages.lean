import CantonSdk.Query.Grpc.DatasetColumns
import CantonSdk.Query.Grpc.OrderIndependence

/-!
# The packages that a fragment refers to

Before a dataset can be built, the packages that the fragment refers to are read: those under which its creations have
their types, those of the templates its exercises are on, and those that own an exercised choice. Metadata for just
these packages is enough, if it lists what the events name and has names that fit into keys. Where two versions of a
package name the same choice, they have to agree on whether it consumes.
-/

set_option linter.all false

namespace CantonSdk.Query.Grpc

open CantonSdk.Base CantonSdk.Query.Canonical

variable {locale : Collation}

/-! ## Metadata -/

theorem not_mem_of_nameString {text : List Char} {c : Char} (h : isNameString text = true)
    (hstart : isNameStart c = false) (hchar : isNameChar c = false) : c ∉ text := by
  intro hmem
  cases text with
  | nil => cases hmem
  | cons first rest =>
      simp only [isNameString, Bool.and_eq_true, List.all_eq_true] at h
      rcases List.mem_cons.mp hmem with rfl | hmem
      · rw [h.1.1] at hstart
        cases hstart
      · rw [h.2 c hmem] at hchar
        cases hchar

theorem not_mem_of_validName {value name result : String} {c : Char} (h : validNameString value name = .ok result)
    (hstart : isNameStart c = false) (hchar : isNameChar c = false) : c ∉ value.toList := by
  rw [validNameString] at h
  split at h
  · rename_i hname
    exact not_mem_of_nameString hname hstart hchar
  · cases h

theorem not_mem_of_dottedName {value name result : String} {c : Char}
    (h : validDottedNameString value name = .ok result) (hstart : isNameStart c = false)
    (hchar : isNameChar c = false) (hdot : c ≠ '.') : c ∉ value.toList := by
  rw [validDottedNameString] at h
  split at h
  · rename_i hsegments
    rw [List.all_eq_true] at hsegments
    intro hmem
    rcases mem_splitDots hmem with heq | ⟨segment, hsegment, hc⟩
    · exact hdot heq
    · exact not_mem_of_nameString (hsegments segment hsegment) hstart hchar hc
  · cases h

/-- What the checks of metadata give for a template with its package. -/
structure TemplateEntry.Normal (entry : TemplateEntry) : Prop where
  package_plain : isPlain entry.package.id = true
  package_length : entry.package.id.length ≤ 64
  name_framed : ':' ∉ entry.package.name.toList
  module_framed : ':' ∉ entry.template.moduleName.toList ∧ '\x00' ∉ entry.template.moduleName.toList
  entity_framed : ':' ∉ entry.template.entityName.toList ∧ '\x00' ∉ entry.template.entityName.toList
  aliases_eq : entry.template.aliases
    = contractTypeAliases entry.package.name entry.template.moduleName entry.template.entityName
  fqn_eq : entry.template.templateFqn
    = templateFqn entry.package.name entry.template.moduleName entry.template.entityName
  choice_framed : ∀ choice ∈ entry.template.choices, '\x00' ∉ choice.choice.toList
  choice_aliases : ∀ choice ∈ entry.template.choices, choice.aliases
    = exerciseTypeAliases entry.package.name entry.template.moduleName entry.template.entityName choice.choice
  choice_fqn : ∀ choice ∈ entry.template.choices, choice.choiceFqn
    = choiceFqn entry.package.name entry.template.moduleName entry.template.entityName choice.choice

theorem packageIdString_ok {value name result : String} (h : validPackageIdString value name = .ok result) :
    isPlain value = true ∧ value.length ≤ 64 := by
  rw [validPackageIdString] at h
  split at h
  · rename_i hclass
    have hchar : ∀ c, isPackageIdChar c = true → 32 ≤ c.toNat ∧ c.toNat < 127 := by
      intro c hc
      simp only [isPackageIdChar, Bool.or_eq_true, decide_eq_true_eq] at hc
      rcases hc with ((hc | rfl) | rfl) | rfl
      · exact plain_of_isAlphanum hc
      all_goals decide
    rw [inClass, Bool.and_eq_true, decide_eq_true_iff] at hclass
    exact ⟨isPlain_of_inClass hchar (by rw [inClass, Bool.and_eq_true, decide_eq_true_iff]; exact hclass),
      hclass.1.2⟩
  · cases h

theorem packageText_framed {value name : String} (h : packageText value name = .ok ()) : ':' ∉ value.toList := by
  rw [packageText, guardThat_eq_ok, isPackageText, Bool.and_eq_true, List.all_eq_true] at h
  intro hmem
  exact absurd (h.2 ':' hmem) (by decide)

/-- Normalized metadata names packages, templates and choices once, and spells out what follows from their names. -/
theorem normalized_packages {packages : List GrpcPackageMetadata}
    (h : normalizeGrpcPackageMetadata packages = .ok ()) :
    (packages.map GrpcPackageMetadata.id).Nodup ∧
      (∀ package ∈ packages, isPlain package.id = true ∧ package.id.length ≤ 64 ∧
        (package.templates.map fun template =>
          templateIdentity package.id template.moduleName template.entityName).Nodup) ∧
      ∀ entry ∈ templateEntries packages, entry.Normal := by
  obtain ⟨hdistinct, hpackages⟩ := checkEachDistinct_eq_ok.mp h
  refine ⟨(checkDistinct_eq_ok.mp hdistinct).1, ?_, ?_⟩
  · intro package hpackage
    obtain ⟨hbefore, hafter⟩ := hpackages package hpackage
    obtain ⟨_, _, hbefore⟩ := bind_eq_ok.mp hbefore
    obtain ⟨_, hid, _⟩ := bind_eq_ok.mp hbefore
    obtain ⟨hplain, hlength⟩ := packageIdString_ok hid
    exact ⟨hplain, hlength, (checkDistinct_eq_ok.mp (checkEachDistinct_eq_ok.mp hafter).1).1⟩
  · intro entry hentry
    obtain ⟨package, hpackage, hentry⟩ := List.mem_flatMap.mp hentry
    obtain ⟨template, htemplate, rfl⟩ := List.mem_map.mp hentry
    obtain ⟨hbefore, hafter⟩ := hpackages package hpackage
    obtain ⟨_, _, hbefore⟩ := bind_eq_ok.mp hbefore
    obtain ⟨_, hid, hbefore⟩ := bind_eq_ok.mp hbefore
    obtain ⟨_, hname, _⟩ := bind_eq_ok.mp hbefore
    obtain ⟨hplain, hlength⟩ := packageIdString_ok hid
    obtain ⟨hnames, htemplateOk⟩ := (checkEachDistinct_eq_ok.mp hafter).2 template htemplate
    obtain ⟨_, hmodule, hnames⟩ := bind_eq_ok.mp hnames
    obtain ⟨_, hentity, _⟩ := bind_eq_ok.mp hnames
    obtain ⟨_, haliases, htemplateOk⟩ := bind_eq_ok.mp htemplateOk
    obtain ⟨_, hfqn, hchoices⟩ := bind_eq_ok.mp htemplateOk
    rw [exactAliases, guardThat_eq_ok, decide_eq_true_iff] at haliases
    rw [exactText, guardThat_eq_ok, decide_eq_true_iff] at hfqn
    have hchoice : ∀ choice ∈ template.choices, '\x00' ∉ choice.choice.toList ∧
        choice.aliases = exerciseTypeAliases package.name template.moduleName template.entityName choice.choice ∧
          choice.choiceFqn = choiceFqn package.name template.moduleName template.entityName choice.choice := by
      intro choice hmem
      obtain ⟨hbefore, hafter⟩ := (checkEachDistinct_eq_ok.mp hchoices).2 choice hmem
      obtain ⟨_, hname, _⟩ := bind_eq_ok.mp hbefore
      obtain ⟨_, haliases, hfqn⟩ := bind_eq_ok.mp hafter
      rw [exactAliases, guardThat_eq_ok, decide_eq_true_iff] at haliases
      rw [exactText, guardThat_eq_ok, decide_eq_true_iff] at hfqn
      exact ⟨not_mem_of_validName hname (by decide) (by decide), haliases, hfqn⟩
    exact {
      package_plain := hplain
      package_length := hlength
      name_framed := packageText_framed hname
      module_framed := ⟨not_mem_of_dottedName hmodule (by decide) (by decide) (by decide),
        not_mem_of_dottedName hmodule (by decide) (by decide) (by decide)⟩
      entity_framed := ⟨not_mem_of_dottedName hentity (by decide) (by decide) (by decide),
        not_mem_of_dottedName hentity (by decide) (by decide) (by decide)⟩
      aliases_eq := haliases
      fqn_eq := hfqn
      choice_framed := fun choice hmem => (hchoice choice hmem).1
      choice_aliases := fun choice hmem => (hchoice choice hmem).2.1
      choice_fqn := fun choice hmem => (hchoice choice hmem).2.2 }

/-! ## Identities -/

theorem append_template_frames (separator package module entity : String) :
    package ++ separator ++ module ++ separator ++ entity
      = package ++ separator ++ (module ++ separator ++ entity) := by
  simp only [String.append_assoc]

/-- The identity of a template determines the package and the names. -/
theorem templateIdentity_injective {packageId moduleName entityName packageId' moduleName' entityName' : String}
    (hpackage : '\x00' ∉ packageId.toList) (hpackage' : '\x00' ∉ packageId'.toList)
    (hmodule : '\x00' ∉ moduleName.toList) (hmodule' : '\x00' ∉ moduleName'.toList)
    (h : templateIdentity packageId moduleName entityName = templateIdentity packageId' moduleName' entityName') :
    packageId = packageId' ∧ moduleName = moduleName' ∧ entityName = entityName' := by
  have hframed := ((append_template_frames _ _ _ _).symm.trans h).trans (append_template_frames _ _ _ _)
  obtain ⟨hsame, hframed⟩ := append_separator_injective hpackage hpackage' hframed
  obtain ⟨hsame', hentity⟩ := append_separator_injective hmodule hmodule' hframed
  exact ⟨hsame, hsame', hentity⟩

theorem append_choice_frames (kind separator package module entity choice flag : String) :
    kind ++ separator ++ package ++ separator ++ module ++ separator ++ entity ++ separator ++ choice ++ separator ++ flag
      = kind ++ separator ++ (package ++ separator ++ (module ++ separator ++ (entity ++ separator
        ++ (choice ++ separator ++ flag)))) := by
  simp only [String.append_assoc]

theorem exerciseIdentity_injective {template template' : Identifier} {choice choice' : String}
    {consuming consuming' : Bool}
    (htemplate : '\x00' ∉ template.packageId.toList ∧ '\x00' ∉ template.moduleName.toList ∧
      '\x00' ∉ template.entityName.toList)
    (htemplate' : '\x00' ∉ template'.packageId.toList ∧ '\x00' ∉ template'.moduleName.toList ∧
      '\x00' ∉ template'.entityName.toList)
    (hchoice : '\x00' ∉ choice.toList) (hchoice' : '\x00' ∉ choice'.toList)
    (h : exerciseIdentity template choice consuming = exerciseIdentity template' choice' consuming') :
    template = template' ∧ choice = choice' ∧ consuming = consuming' := by
  have hkind : '\x00' ∉ "exercise-type".toList := by decide
  have hframed := ((append_choice_frames _ _ _ _ _ _ _).symm.trans h).trans (append_choice_frames _ _ _ _ _ _ _)
  obtain ⟨_, hframed⟩ := append_separator_injective hkind hkind hframed
  obtain ⟨hpackage, hframed⟩ := append_separator_injective htemplate.1 htemplate'.1 hframed
  obtain ⟨hmodule, hframed⟩ := append_separator_injective htemplate.2.1 htemplate'.2.1 hframed
  obtain ⟨hentity, hframed⟩ := append_separator_injective htemplate.2.2 htemplate'.2.2 hframed
  obtain ⟨hsame, hconsuming⟩ := append_separator_injective hchoice hchoice' hframed
  refine ⟨?_, hsame, ?_⟩
  · cases template
    cases template'
    simp_all
  · revert hconsuming
    cases consuming <;> cases consuming' <;> decide

/-- A key of a choice is not one of a template. -/
theorem contractIdentity_ne_exerciseIdentity (template template' : Identifier) (choice : String) (consuming : Bool) :
    contractIdentity template ≠ exerciseIdentity template' choice consuming := by
  intro h
  have hcontract : '\x00' ∉ "contract-type".toList := by decide
  have hexercise : '\x00' ∉ "exercise-type".toList := by decide
  have hframed := ((append_frames _ _ _ _ _).symm.trans h).trans (append_choice_frames _ _ _ _ _ _ _)
  obtain ⟨hkind, _⟩ := append_separator_injective hcontract hexercise hframed
  exact absurd hkind (by decide)

end CantonSdk.Query.Grpc
