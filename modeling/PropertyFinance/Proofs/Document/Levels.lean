import PropertyFinance.Document.Inputs
import PropertyFinance.Proofs.Document.Alike

/-! Reading assumptions, whose scenarios carry assumptions again. The reader is given a number of
levels; any number beyond the depth of the document does, so that the reader calls itself. -/

namespace PropertyFinance
set_option autoImplicit false
open Json

namespace Fields
variable {A : Type} {fields : Fields} {name : String} {json value : Json} {names : List String}
  {read read' : Json → Option A}

/-- Fields are parts of the record. -/
theorem depth_lt_of_get? (hfields : Fields.ofJson? names json = some fields)
    (hvalue : fields.get? name = some value) : value.depth < json.depth := by
  obtain ⟨before, after, hentries, -⟩ := List.lookup_eq_some_iff.mp hvalue
  have hmem : (name, value) ∈ fields.entries := by simp [hentries]
  cases json with
  | object entries =>
    simp only [Fields.ofJson?] at hfields
    split at hfields
    · exact nomatch hfields
    · cases hfields
      exact depth_lt_of_mem_object (List.mem_filter.mp hmem).1
  | array items =>
    simp only [Fields.ofJson?] at hfields
    split at hfields
    · exact nomatch hfields
    · cases hfields
      exact depth_lt_of_mem_array (List.of_mem_zip hmem).2
  | _ => exact nomatch hfields

theorem required_congr (h : ∀ value, fields.get? name = some value → read value = read' value) :
    fields.required name read = fields.required name read' := by
  unfold required
  cases hvalue : fields.get? name with
  | none => rfl
  | some value => exact h value hvalue

theorem withDefault_congr {default : A}
    (h : ∀ value, fields.get? name = some value → read value = read' value) :
    fields.withDefault name read default = fields.withDefault name read' default := by
  unfold withDefault
  cases hvalue : fields.get? name with
  | none => rfl
  | some value => exact h value hvalue

end Fields

namespace Json
variable {A : Type} {read read' : Json → Option A} {json : Json}

theorem readOptional_congr (h : read json = read' json) :
    readOptional read json = readOptional read' json := by
  cases json <;> simp_all [readOptional]

theorem mapM_congr {items : List Json} (h : ∀ item ∈ items, read item = read' item) :
    items.mapM read = items.mapM read' := by
  induction items with
  | nil => rfl
  | cons item rest ih =>
    simp only [List.mapM_cons, h item List.mem_cons_self,
      ih fun i hi => h i (List.mem_cons_of_mem item hi)]

theorem readList_congr (h : ∀ item : Json, item.depth < json.depth → read item = read' item) :
    readList read json = readList read' json := by
  cases json with
  | array items => exact mapM_congr fun item hitem => h item (depth_lt_of_mem_array hitem)
  | _ => rfl

end Json

section Congruence
variable {A : Type} {read read' : Json → Option A} {json : Json}

theorem StressScenario.ofJson?_congr
    (h : ∀ part : Json, part.depth < json.depth → read part = read' part) :
    StressScenario.ofJson? read json = StressScenario.ofJson? read' json := by
  refine Option.bind_congr fun fields hfields => ?_
  have hassumptions : fields.required "assumptions" read = fields.required "assumptions" read' :=
    Fields.required_congr fun value hvalue => h value (Fields.depth_lt_of_get? hfields hvalue)
  rw [hassumptions]

theorem StressBundle.ofJson?_congr
    (h : ∀ part : Json, part.depth < json.depth → read part = read' part) :
    StressBundle.ofJson? read json = StressBundle.ofJson? read' json := by
  refine Option.bind_congr fun fields hfields => ?_
  have hscenarios : fields.required "scenarios" (readList (StressScenario.ofJson? read)) =
      fields.required "scenarios" (readList (StressScenario.ofJson? read')) := by
    refine Fields.required_congr fun value hvalue => readList_congr fun item hitem => ?_
    have hvalue := Fields.depth_lt_of_get? hfields hvalue
    exact StressScenario.ofJson?_congr fun part hpart => h part (by omega)
  simp only [hscenarios]

end Congruence

namespace Assumptions

/-- The reader of assumptions, given one for those of the scenarios. -/
def readWith (read : Json → Option Assumptions) (json : Json) : Option Assumptions := do
  let fields ← Fields.ofJson? fieldNames json
  let deal ← Deal.ofFields? fields
  let readBundle := Json.readOptional (StressBundle.ofJson? read)
  some ⟨deal, ← fields.withDefault "stress_scenario_bundle" readBundle none⟩

theorem readWith_congr {read read' : Json → Option Assumptions} {json : Json}
    (h : ∀ part : Json, part.depth < json.depth → read part = read' part) :
    readWith read json = readWith read' json := by
  refine Option.bind_congr fun fields hfields => Option.bind_congr fun deal _ => ?_
  have hbundle : fields.withDefault "stress_scenario_bundle"
        (readOptional (StressBundle.ofJson? read)) none =
      fields.withDefault "stress_scenario_bundle" (readOptional (StressBundle.ofJson? read')) none := by
    refine Fields.withDefault_congr fun value hvalue => readOptional_congr ?_
    have hvalue := Fields.depth_lt_of_get? hfields hvalue
    exact StressBundle.ofJson?_congr fun part hpart => h part (by omega)
  simp only [hbundle]

theorem ofJsonWithin_succ (levels : Nat) :
    ofJsonWithin (levels + 1) = readWith (ofJsonWithin levels) := by
  funext json
  rw [ofJsonWithin]
  rfl

/-- The levels do not matter as long as the document is not deeper. -/
theorem ofJsonWithin_eq {levels : Nat} {json : Json} (h : json.depth < levels) :
    ofJsonWithin levels json = ofJson? json := by
  have hlevels {l l' : Nat} {json : Json} (h : json.depth < l) (h' : json.depth < l') :
      ofJsonWithin l json = ofJsonWithin l' json := by
    induction l generalizing l' json with
    | zero => exact absurd h (Nat.not_lt_zero _)
    | succ l ih =>
      cases l' with
      | zero => exact absurd h' (Nat.not_lt_zero _)
      | succ l' =>
        rw [ofJsonWithin_succ, ofJsonWithin_succ]
        exact readWith_congr fun part hpart => ih (by omega) (by omega)
  exact hlevels h (Nat.lt_succ_self _)

/-- The reader of assumptions reads those of the scenarios, too. -/
theorem ofJson?_eq : ofJson? = readWith ofJson? := by
  funext json
  rw [ofJson?, ofJsonWithin_succ]
  exact readWith_congr fun part hpart => ofJsonWithin_eq hpart

end Assumptions

end PropertyFinance
