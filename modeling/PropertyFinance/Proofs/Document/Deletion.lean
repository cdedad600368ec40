import PropertyFinance.Proofs.Document.Reading

/-! Documents from which entries are deleted. What is deleted is told by the place of the object in
the document and the name of the entry. -/

namespace PropertyFinance
set_option autoImplicit false

inductive Step
  | entry (name : String)
  | item (index : Nat)
deriving DecidableEq

/-- Whether an entry is deleted, given the way to its object and its name. -/
abbrev Deletion := List Step → String → Bool

namespace Deletion

def nothing : Deletion := fun _ _ => false

/-- What is deleted from the part behind a step. -/
def within (drop : Deletion) (step : Step) : Deletion := fun path => drop (step :: path)

@[simp] theorem within_apply (drop : Deletion) (step : Step) (path : List Step) :
    drop.within step path = drop (step :: path) := rfl
@[simp] theorem within_nothing (step : Step) : nothing.within step = nothing := rfl

end Deletion

namespace Json

mutual

def prune (drop : Deletion) : Json → Json
  | array items => array (pruneItems drop 0 items)
  | object entries => object (pruneEntries drop entries)
  | json => json

def pruneItems (drop : Deletion) : Nat → List Json → List Json
  | _, [] => []
  | i, item :: rest => prune (drop.within (.item i)) item :: pruneItems drop (i + 1) rest

def pruneEntries (drop : Deletion) : List (String × Json) → List (String × Json)
  | [] => []
  | (name, value) :: rest =>
    if drop [] name then pruneEntries drop rest
    else (name, prune (drop.within (.entry name)) value) :: pruneEntries drop rest

end

section Prune
variable {drop : Deletion}

mutual

theorem prune_nothing : ∀ json : Json, json.prune .nothing = json
  | array items => congrArg array (pruneItems_nothing 0 items)
  | object entries => congrArg object (pruneEntries_nothing entries)
  | null | bool _ | number _ | text _ | unreadable => rfl

theorem pruneItems_nothing : ∀ (i : Nat) (items : List Json), pruneItems .nothing i items = items
  | _, [] => rfl
  | i, item :: rest => by
    rw [pruneItems, Deletion.within_nothing, prune_nothing item, pruneItems_nothing (i + 1) rest]

theorem pruneEntries_nothing : ∀ entries : List (String × Json), pruneEntries .nothing entries = entries
  | [] => rfl
  | (name, value) :: rest => by
    rw [pruneEntries, Deletion.within_nothing, prune_nothing value, pruneEntries_nothing rest]
    rfl

end

theorem mem_of_mem_pruneEntries {name : String} {value : Json} {entries : List (String × Json)}
    (h : (name, value) ∈ pruneEntries drop entries) :
    ∃ whole, (name, whole) ∈ entries ∧ value = whole.prune (drop.within (.entry name)) := by
  induction entries with
  | nil => exact absurd h List.not_mem_nil
  | cons entry rest ih =>
    obtain ⟨own, whole⟩ := entry
    rw [pruneEntries] at h
    split at h
    · obtain ⟨whole', hmem, hvalue⟩ := ih h
      exact ⟨whole', List.mem_cons_of_mem _ hmem, hvalue⟩
    · rcases List.mem_cons.mp h with heq | hmem
      · cases heq
        exact ⟨whole, List.mem_cons_self, rfl⟩
      · obtain ⟨whole', hmem, hvalue⟩ := ih hmem
        exact ⟨whole', List.mem_cons_of_mem _ hmem, hvalue⟩

theorem mem_of_mem_pruneItems {item : Json} {items : List Json} {i : Nat}
    (h : item ∈ pruneItems drop i items) :
    ∃ whole ∈ items, ∃ j, item = whole.prune (drop.within (.item j)) := by
  induction items generalizing i with
  | nil => exact absurd h List.not_mem_nil
  | cons whole rest ih =>
    rcases List.mem_cons.mp h with rfl | hmem
    · exact ⟨whole, List.mem_cons_self, i, rfl⟩
    · obtain ⟨whole', hmem, j, hitem⟩ := ih hmem
      exact ⟨whole', List.mem_cons_of_mem _ hmem, j, hitem⟩

theorem pruneEntries_names_sublist (entries : List (String × Json)) :
    ((pruneEntries drop entries).map Prod.fst).Sublist (entries.map Prod.fst) := by
  induction entries with
  | nil => exact .slnil
  | cons entry rest ih =>
    obtain ⟨name, value⟩ := entry
    rw [pruneEntries]
    split
    · exact ih.cons name
    · exact ih.cons_cons name

theorem Proper.prune {json : Json} : json.Proper → (json.prune drop).Proper := by
  induction json using induction_on_parts generalizing drop with
  | h json ih =>
    intro h
    cases json with
    | null | bool _ | number _ | text _ | unreadable => exact h
    | array items =>
      refine proper_array_iff.mpr fun item hitem => ?_
      obtain ⟨whole, hmem, j, rfl⟩ := mem_of_mem_pruneItems hitem
      exact ih whole (depth_lt_of_mem_array hmem) (proper_array_iff.mp h whole hmem)
    | object entries =>
      obtain ⟨hnames, hvalues⟩ := proper_object_iff.mp h
      refine proper_object_iff.mpr
        ⟨hnames.sublist (pruneEntries_names_sublist entries), fun (name, value) he => ?_⟩
      obtain ⟨whole, hmem, rfl⟩ := mem_of_mem_pruneEntries he
      exact ih whole (depth_lt_of_mem_object hmem) (hvalues _ hmem)

theorem lookup_pruneEntries (name : String) (entries : List (String × Json)) :
    (pruneEntries drop entries).lookup name =
      if drop [] name then none
      else (entries.lookup name).map (Json.prune (drop.within (.entry name))) := by
  induction entries with
  | nil => simp [pruneEntries]
  | cons entry rest ih =>
    obtain ⟨own, value⟩ := entry
    by_cases hname : name = own
    · subst hname
      cases hdrop : drop [] name <;> simp [pruneEntries, hdrop, ih]
    · have hne : (name == own) = false := beq_eq_false_iff_ne.mpr hname
      cases hdrop : drop [] own <;> simp [pruneEntries, hdrop, List.lookup_cons, hne, ih]

end Prune

end Json

namespace Fields.Shows
open Json
variable {A : Type} {fields : Fields} {names : List String} {entries : List (String × Json)}
  {drop : Deletion} {name : String} {value : Json} {read : Json → Option A} {a default : A}

/-- A field that may have been deleted. -/
theorem withDefault_pruned (h : fields.Shows names (pruneEntries drop entries)) (name : String)
    (value : Json) (hmeans : Means read (value.prune (drop.within (.entry name))) a)
    (hname : name ∈ names := by decide) (hvalue : entries.lookup name = some value := by rfl) :
    fields.withDefault name read default = some (if drop [] name then default else a) := by
  cases hdrop : drop [] name with
  | true => exact h.withDefault_absent hname (by rw [lookup_pruneEntries, hdrop]; rfl)
  | false => exact h.withDefault name hmeans hname (by rw [lookup_pruneEntries, hdrop, hvalue]; rfl)

theorem decimal_pruned {default : Decimal} (h : fields.Shows names (pruneEntries drop entries))
    (name : String) (d : Decimal) (hname : name ∈ names := by decide)
    (hvalue : entries.lookup name = some d.toJson := by rfl) :
    fields.withDefault name Decimal.ofJson? default =
      some (if drop [] name then default else d.plain) :=
  h.withDefault_pruned name d.toJson (.decimal d) hname hvalue

theorem count_pruned {default : UInt32} (h : fields.Shows names (pruneEntries drop entries))
    (name : String) (n : UInt32) (hname : name ∈ names := by decide)
    (hvalue : entries.lookup name = some (.ofCount n) := by rfl) :
    fields.withDefault name readCount default = some (if drop [] name then default else n) :=
  h.withDefault_pruned name (.ofCount n) (.count n) hname hvalue

/-- A field that has to be there and has not been deleted. -/
theorem required_pruned (h : fields.Shows names (pruneEntries drop entries)) (name : String)
    (value : Json) (hdrop : drop [] name = false)
    (hmeans : Means read (value.prune (drop.within (.entry name))) a)
    (hname : name ∈ names := by decide) (hvalue : entries.lookup name = some value := by rfl) :
    fields.required name read = some a :=
  h.required name hmeans hname (by rw [lookup_pruneEntries, hdrop, hvalue]; rfl)

end Fields.Shows

end PropertyFinance
