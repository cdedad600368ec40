import PropertyFinance.Proofs.Document.Deals
import PropertyFinance.Proofs.Document.Levels

/-! Assumptions with their scenarios, and theirs in turn, read from their document. Entries that have
defaults may be deleted from it at every level. -/

namespace PropertyFinance
set_option autoImplicit false
open Json

/-- The entries that a bundle and its scenarios cannot do without. -/
def StressBundle.requiredNames : List String :=
  ["scenarios", "id", "name", "probability_pct", "assumptions"]

/-- No entry of these names is deleted, wherever it stands. -/
def Deletion.Spares (drop : Deletion) (names : List String) : Prop :=
  ∀ path, ∀ name ∈ names, drop path name = false

theorem Deletion.Spares.within {drop : Deletion} {names : List String} (h : drop.Spares names)
    (step : Step) : (drop.within step).Spares names := fun path => h (step :: path)

theorem Deletion.spares_nothing (names : List String) : Deletion.nothing.Spares names :=
  fun _ _ _ => rfl

namespace Assumptions

mutual

/-- With plain decimals at every level. -/
def plain : Assumptions → Assumptions
  | ⟨deal, bundle⟩ => ⟨deal.plain, plainAttached bundle⟩

def plainAttached : Option (StressBundle Assumptions) → Option (StressBundle Assumptions)
  | none => none
  | some bundle => some (plainBundle bundle)

def plainBundle : StressBundle Assumptions → StressBundle Assumptions
  | ⟨scenarios⟩ => ⟨plainScenarios scenarios⟩

def plainScenarios : List (StressScenario Assumptions) → List (StressScenario Assumptions)
  | [] => []
  | s :: rest => plainScenario s :: plainScenarios rest

def plainScenario : StressScenario Assumptions → StressScenario Assumptions
  | ⟨id, name, probabilityPct, assumptions⟩ => ⟨id, name, probabilityPct.plain, plain assumptions⟩

end

mutual

/-- With the defaults of what is deleted at any level. -/
def reset (drop : Deletion) : Assumptions → Assumptions
  | ⟨deal, bundle⟩ =>
    ⟨deal.reset drop,
      if drop [] "stress_scenario_bundle" then none
      else resetAttached (drop.within (.entry "stress_scenario_bundle")) bundle⟩

def resetAttached (drop : Deletion) :
    Option (StressBundle Assumptions) → Option (StressBundle Assumptions)
  | none => none
  | some bundle => some (resetBundle drop bundle)

def resetBundle (drop : Deletion) : StressBundle Assumptions → StressBundle Assumptions
  | ⟨scenarios⟩ => ⟨resetScenarios (drop.within (.entry "scenarios")) 0 scenarios⟩

def resetScenarios (drop : Deletion) :
    Nat → List (StressScenario Assumptions) → List (StressScenario Assumptions)
  | _, [] => []
  | i, s :: rest => resetScenario (drop.within (.item i)) s :: resetScenarios drop (i + 1) rest

def resetScenario (drop : Deletion) : StressScenario Assumptions → StressScenario Assumptions
  | ⟨id, name, probabilityPct, assumptions⟩ =>
    ⟨id, name, probabilityPct, reset (drop.within (.entry "assumptions")) assumptions⟩

end

mutual

theorem reset_nothing : ∀ assumptions : Assumptions, assumptions.reset .nothing = assumptions
  | ⟨_, none⟩ => rfl
  | ⟨deal, some bundle⟩ =>
    congrArg (fun bundle => Assumptions.mk deal (some bundle)) (resetBundle_nothing bundle)

theorem resetBundle_nothing : ∀ bundle : StressBundle Assumptions, resetBundle .nothing bundle = bundle
  | ⟨scenarios⟩ => congrArg _ (resetScenarios_nothing 0 scenarios)

theorem resetScenarios_nothing : ∀ (i : Nat) (scenarios : List (StressScenario Assumptions)),
    resetScenarios .nothing i scenarios = scenarios
  | _, [] => rfl
  | i, ⟨id, name, probabilityPct, assumptions⟩ :: rest => by
    have hassumptions := reset_nothing assumptions
    have hrest := resetScenarios_nothing (i + 1) rest
    simp only [resetScenarios, resetScenario, Deletion.within_nothing, hassumptions, hrest]

end

mutual

theorem proper_toJson : ∀ assumptions : Assumptions, assumptions.toJson.Proper
  | ⟨deal, none⟩ => by
    simp [toJson, bundleEntry, Deal.entries, Decimal.toJson, deal.acquisition.proper_toJson,
      deal.financing.proper_toJson, deal.income.proper_toJson, deal.expenses.proper_toJson,
      deal.exit.proper_toJson]
  | ⟨deal, some bundle⟩ => by
    simp [toJson, bundleEntry, Deal.entries, Decimal.toJson, deal.acquisition.proper_toJson,
      deal.financing.proper_toJson, deal.income.proper_toJson, deal.expenses.proper_toJson,
      deal.exit.proper_toJson, proper_bundleToJson bundle]

theorem proper_bundleToJson : ∀ bundle : StressBundle Assumptions, (bundleToJson bundle).Proper
  | ⟨scenarios⟩ => by
    simpa [bundleToJson] using proper_scenarioItems scenarios

theorem proper_scenarioItems : ∀ scenarios : List (StressScenario Assumptions),
    ∀ item ∈ scenarioItems scenarios, item.Proper
  | [] => nofun
  | ⟨id, name, probabilityPct, assumptions⟩ :: rest => by
    have hassumptions := proper_toJson assumptions
    have hrest := proper_scenarioItems rest
    rw [scenarioItems, List.forall_mem_cons]
    exact ⟨by simp [scenarioToJson, Decimal.toJson, hassumptions], hrest⟩

end

mutual

/-- Assumptions come back from their document with the defaults of what has been deleted. -/
theorem means_prune : ∀ (assumptions : Assumptions) {drop : Deletion},
    drop.Spares StressBundle.requiredNames →
    Means ofJson? (assumptions.toJson.prune drop) (assumptions.plain.reset drop)
  | ⟨deal, none⟩, drop, _ => by
    rw [ofJson?_eq]
    refine Means.record (proper_toJson ⟨deal, none⟩).prune fun fields h => ?_
    have habsent : (pruneEntries drop (deal.entries ++ bundleEntry none)).lookup
        "stress_scenario_bundle" = none := by
      rw [lookup_pruneEntries]
      exact ite_self _
    simp [deal.ofFields?_pruned h, h.withDefault_absent (by decide) habsent, plain, plainAttached, reset,
      resetAttached]
  | ⟨deal, some bundle⟩, drop, hdrop => by
    have hbundle := means_prune_bundle bundle (hdrop.within (.entry "stress_scenario_bundle"))
    rw [ofJson?_eq]
    refine Means.record (proper_toJson ⟨deal, some bundle⟩).prune fun fields h => ?_
    simp [deal.ofFields?_pruned h,
      h.withDefault_pruned "stress_scenario_bundle" (bundleToJson bundle)
        (hbundle.optional (by cases bundle; nofun)),
      plain, plainAttached, reset, resetAttached]

theorem means_prune_bundle : ∀ (bundle : StressBundle Assumptions) {drop : Deletion},
    drop.Spares StressBundle.requiredNames →
    Means (StressBundle.ofJson? ofJson?) ((bundleToJson bundle).prune drop)
      (resetBundle drop (plainBundle bundle))
  | ⟨scenarios⟩, drop, hdrop => by
    have hscenarios := means_prune_scenarios scenarios (hdrop.within (.entry "scenarios")) 0
    refine Means.record (proper_bundleToJson ⟨scenarios⟩).prune fun fields h => ?_
    simp [h.required_pruned "scenarios" (.array (scenarioItems scenarios)) (hdrop [] _ (by decide))
      (.list hscenarios), plainBundle, resetBundle]

theorem means_prune_scenarios : ∀ (scenarios : List (StressScenario Assumptions)) {drop : Deletion},
    drop.Spares StressBundle.requiredNames → ∀ i : Nat,
    List.Forall₂ (Means (StressScenario.ofJson? ofJson?)) (pruneItems drop i (scenarioItems scenarios))
      (resetScenarios drop i (plainScenarios scenarios))
  | [], _, _, _ => .nil
  | ⟨id, name, probabilityPct, assumptions⟩ :: rest, drop, hdrop, i => by
    have hassumptions :=
      means_prune assumptions ((hdrop.within (.item i)).within (.entry "assumptions"))
    have hproper : (scenarioToJson ⟨id, name, probabilityPct, assumptions⟩).Proper :=
      proper_scenarioItems (⟨id, name, probabilityPct, assumptions⟩ :: rest) _ List.mem_cons_self
    refine .cons (Means.record hproper.prune fun fields h => ?_) (means_prune_scenarios rest hdrop (i + 1))
    have hkept := hdrop.within (.item i) []
    simp [h.required_pruned "id" (.text id) (hkept _ (by decide)) (.string id),
      h.required_pruned "name" (.text name) (hkept _ (by decide)) (.string name),
      h.required_pruned "probability_pct" probabilityPct.toJson (hkept _ (by decide))
        (.decimal probabilityPct),
      h.required_pruned "assumptions" assumptions.toJson (hkept _ (by decide)) hassumptions,
      plainScenario, resetScenario]

end

theorem means (assumptions : Assumptions) : Means ofJson? assumptions.toJson assumptions.plain := by
  have h := assumptions.means_prune (Deletion.spares_nothing _)
  rwa [prune_nothing, reset_nothing] at h

theorem means_bundle (bundle : StressBundle Assumptions) :
    Means (StressBundle.ofJson? ofJson?) (bundleToJson bundle) (plainBundle bundle) := by
  have h := means_prune_bundle bundle (Deletion.spares_nothing _)
  rwa [prune_nothing, resetBundle_nothing] at h

end Assumptions

end PropertyFinance
