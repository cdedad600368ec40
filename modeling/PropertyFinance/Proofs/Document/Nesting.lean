import PropertyFinance.Proofs.Document.JsonText
import PropertyFinance.Proofs.Document.Levels
import PropertyFinance.Proofs.Document.Reading

/-! Assumptions in a text that is nested deeper than can be read. Scenarios carry assumptions again,
so this happens to any assumptions that are attached deep enough. -/

namespace PropertyFinance
set_option autoImplicit false
open Json Json.Reader

section Cut
variable {name : String} {names : List String} {entries : List (String × Json)} {depth : Nat}

theorem Json.lookup_cutEntries :
    (cutEntries depth entries).lookup name = (entries.lookup name).map (cut depth) := by
  induction entries with
  | nil => rfl
  | cons entry rest ih =>
    rw [cutEntries, List.lookup_cons, List.lookup_cons]
    split
    · rfl
    · exact ih

/-- The fields of a record that is cut are cut themselves. -/
theorem Fields.get?_of_cut {fields : Fields} {value : Json} (name : String)
    (hfields : Fields.ofJson? names ((object entries).cut depth) = some fields)
    (hvalue : entries.lookup name = some value) (hname : name ∈ names := by decide) :
    fields.get? name = some (value.cut (depth + 1)) := by
  rw [cut, atDepth] at hfields
  split at hfields
  · cases hfields
  · simp only [Fields.ofJson?] at hfields
    split at hfields
    · cases hfields
    · cases hfields
      rw [Fields.get?, lookup_filter (List.contains_iff_mem.mpr hname), lookup_cutEntries, hvalue]
      rfl

theorem Fields.required_eq_none {A : Type} {fields : Fields} {value : Json} {read : Json → Option A}
    (hvalue : fields.get? name = some value) (hread : read value = none) :
    fields.required name read = none := by
  simp only [required, hvalue, hread]

theorem Fields.withDefault_eq_none {A : Type} {fields : Fields} {value : Json} {read : Json → Option A}
    {default : A} (hvalue : fields.get? name = some value) (hread : read value = none) :
    fields.withDefault name read default = none := by
  simp only [withDefault, hvalue, hread]

theorem Json.readOptional_eq_none {A : Type} {json : Json} {read : Json → Option A} (hjson : json ≠ null)
    (hread : read json = none) : readOptional read json = none := by
  cases json with
  | null => exact absurd rfl hjson
  | _ => simp [readOptional, hread]

end Cut

namespace Assumptions

theorem depth_entries (deal : Deal) (bundle : Option (StressBundle Assumptions)) :
    depthOfEntries (deal.entries ++ bundleEntry bundle) = max 1 (depthOfEntries (bundleEntry bundle)) := by
  have hdecimal (d : Decimal) : d.toJson.depth = 0 := rfl
  have hcount (n : UInt32) : (ofCount n).depth = 0 := rfl
  simp only [Deal.entries, List.cons_append, List.nil_append, depthOfEntries, Json.depth,
    AcquisitionTerms.toJson, FinancingTerms.toJson, IncomeTerms.toJson, ExpenseTerms.toJson,
    ExitTerms.toJson, hdecimal, hcount]
  omega

theorem cut_bundle_ne_null (bundle : StressBundle Assumptions) (depth : Nat) :
    (bundleToJson bundle).cut depth ≠ null := by
  obtain ⟨scenarios⟩ := bundle
  rw [bundleToJson, cut, atDepth]
  split <;> nofun

mutual

/-- Assumptions are not read from a text in which a part of them is nested too deep. -/
theorem ofJson?_cut : ∀ (assumptions : Assumptions) (depth : Nat),
    maxDepth < assumptions.toJson.depth + depth → ofJson? (assumptions.toJson.cut depth) = none
  | ⟨deal, bundle⟩, depth, h => by
    rw [toJson, Json.depth, depth_entries] at h
    rw [ofJson?_eq]
    refine Option.bind_eq_none_iff.mpr fun fields hfields => ?_
    -- Either the groups of terms are too deep already, or the attached scenarios are.
    by_cases hgroup : maxDepth < depth + 2
    · have hget := Fields.get?_of_cut "acquisition" hfields rfl
      have hread : AcquisitionTerms.ofJson? (deal.acquisition.toJson.cut (depth + 1)) = none := by
        rw [AcquisitionTerms.toJson, cut, atDepth, if_pos hgroup]
        rfl
      have hdeal : Deal.ofFields? fields = none := by
        simp [Deal.ofFields?, Fields.withDefault_eq_none hget hread]
      simp [hdeal]
    · cases bundle with
      | none =>
        rw [bundleEntry, depthOfEntries] at h
        omega
      | some bundle =>
        have hget := Fields.get?_of_cut "stress_scenario_bundle" hfields rfl
        have hread := ofJson?_cut_bundle bundle (depth + 1) (by
          simp only [bundleEntry, depthOfEntries] at h
          omega)
        have hattached := readOptional_eq_none (cut_bundle_ne_null bundle (depth + 1)) hread
        simp [Fields.withDefault_eq_none hget hattached]

theorem ofJson?_cut_bundle : ∀ (bundle : StressBundle Assumptions) (depth : Nat),
    maxDepth < (bundleToJson bundle).depth + depth →
    StressBundle.ofJson? ofJson? ((bundleToJson bundle).cut depth) = none
  | ⟨scenarios⟩, depth, h => by
    refine Option.bind_eq_none_iff.mpr fun fields hfields => ?_
    have hget := Fields.get?_of_cut "scenarios" hfields rfl
    have hread : readList (StressScenario.ofJson? ofJson?)
        ((array (scenarioItems scenarios)).cut (depth + 1)) = none := by
      rw [cut, atDepth]
      split
      · rfl
      · refine mapM_cut_scenarios scenarios (depth + 2) (by omega) ?_
        rw [bundleToJson] at h
        simp only [Json.depth, depthOfEntries] at h
        omega
    simp [Fields.required_eq_none hget hread]

theorem mapM_cut_scenarios : ∀ (scenarios : List (StressScenario Assumptions)) (depth : Nat),
    depth ≤ maxDepth → maxDepth < depthOfItems (scenarioItems scenarios) + depth →
    (cutItems depth (scenarioItems scenarios)).mapM (StressScenario.ofJson? ofJson?) = none
  | [], depth, hdepth, h => by
    rw [scenarioItems, depthOfItems] at h
    omega
  | s :: rest, depth, hdepth, h => by
    rw [scenarioItems, depthOfItems] at h
    rw [scenarioItems, cutItems, List.mapM_cons]
    by_cases hfirst : maxDepth < (scenarioToJson s).depth + depth
    · simp [ofJson?_cut_scenario s depth hfirst]
    · simp [mapM_cut_scenarios rest depth hdepth (by omega)]

theorem ofJson?_cut_scenario : ∀ (s : StressScenario Assumptions) (depth : Nat),
    maxDepth < (scenarioToJson s).depth + depth →
    StressScenario.ofJson? ofJson? ((scenarioToJson s).cut depth) = none
  | ⟨id, name, probabilityPct, assumptions⟩, depth, h => by
    refine Option.bind_eq_none_iff.mpr fun fields hfields => ?_
    have hget := Fields.get?_of_cut "assumptions" hfields rfl
    have hread := ofJson?_cut assumptions (depth + 1) (by
      have hdecimal : probabilityPct.toJson.depth = 0 := rfl
      rw [scenarioToJson] at h
      simp only [Json.depth, depthOfEntries, hdecimal] at h
      omega)
    simp [Fields.required_eq_none hget hread]

end

end Assumptions

end PropertyFinance
