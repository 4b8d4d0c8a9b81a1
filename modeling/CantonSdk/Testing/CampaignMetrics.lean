import CantonSdk.Base.KeyedMap
import CantonSdk.Base.Sorting
import CantonSdk.Base.Text

/-!
# Metrics of a campaign

How often each actor and each target saw each kind of outcome. Both counters are records whose keys are
put in order after every action.
-/

set_option linter.all false

namespace CantonSdk.Testing

open CantonSdk.Base

inductive CampaignMetricOutcome where
  | accepted (updateId : String)
  | discarded (reason : String)
  | malformedResponse (reason : String)
  | protocolRevert (reason : String)
  | timeout (reason : String)
  | transportError (reason : String)
  | unknownCommitOutcome (reason : String)
  deriving DecidableEq

namespace CampaignMetricOutcome

def kind : CampaignMetricOutcome → String
  | accepted _ => "accepted"
  | discarded _ => "discarded"
  | malformedResponse _ => "malformed-response"
  | protocolRevert _ => "protocol-revert"
  | timeout _ => "timeout"
  | transportError _ => "transport-error"
  | unknownCommitOutcome _ => "unknown-commit-outcome"

end CampaignMetricOutcome

/-- The counts of one counter: by key, and under it by the kind of outcome. -/
abbrev CampaignCounter := KeyedMap String (KeyedMap String Nat)

structure CampaignMetrics where
  byActor : CampaignCounter
  byTarget : CampaignCounter

def createCampaignMetrics : CampaignMetrics := ⟨.empty, .empty⟩

section Counters

variable (locale : Collation)

/-- `Object.fromEntries(Object.entries(record).sort(([left], [right]) => left.localeCompare(right)))`. -/
def sortRecord {υ : Type} (record : KeyedMap String υ) : KeyedMap String υ where
  entries := sortBy (compareKey locale.localeCompare Prod.fst) record.entries
  keys_nodup := by
    have hperm := (perm_sortBy (compareKey locale.localeCompare Prod.fst) record.entries).map Prod.fst
    exact hperm.nodup_iff.mpr record.keys_nodup

def incrementMetric (metric : CampaignCounter) (key outcome : String) : CampaignCounter :=
  let outcomes := (metric.get key).getD .empty
  let next := metric.set key (outcomes.set outcome ((outcomes.get outcome).getD 0 + 1))
  sortRecord locale (next.mapValues (sortRecord locale))

def recordCampaignAction (metrics : CampaignMetrics) (actor targetKey : String)
    (outcome : CampaignMetricOutcome) : CampaignMetrics where
  byActor := incrementMetric locale metrics.byActor actor outcome.kind
  byTarget := incrementMetric locale metrics.byTarget targetKey outcome.kind

variable {locale}

@[simp] theorem get_sortRecord {υ : Type} (record : KeyedMap String υ) (key : String) :
    (sortRecord locale record).get key = record.get key := by
  apply Option.ext
  intro value
  rw [KeyedMap.get_eq_some, KeyedMap.get_eq_some]
  exact (perm_sortBy _ _).mem_iff

/-- How often a counter has seen a kind of outcome under a key. -/
def countOf (metric : CampaignCounter) (key outcome : String) : Nat :=
  (((metric.get key).getD .empty).get outcome).getD 0

@[simp] theorem countOf_empty (key outcome : String) : countOf .empty key outcome = 0 := rfl

/-- An increment counts one outcome and leaves every other count as it was. -/
theorem countOf_incrementMetric (metric : CampaignCounter) (key outcome other kind : String) :
    countOf (incrementMetric locale metric key outcome) other kind
      = countOf metric other kind + if other = key ∧ kind = outcome then 1 else 0 := by
  rw [countOf, incrementMetric, get_sortRecord, KeyedMap.get_mapValues, KeyedMap.get_set]
  by_cases hkey : other = key
  · subst hkey
    rw [if_pos rfl, Option.map_some, Option.getD_some, get_sortRecord, KeyedMap.get_set]
    by_cases hkind : kind = outcome
    · subst hkind
      simp [countOf]
    · simp [countOf, hkind]
  · rw [if_neg hkey]
    cases hget : metric.get other with
    | none => simp [countOf, hget, hkey]
    | some outcomes => simp [countOf, hget, hkey]

end Counters

end CantonSdk.Testing
