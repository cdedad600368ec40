import Mathlib.Data.List.Forall2
import Mathlib.Data.List.Perm.Basic
import PropertyFinance.Json.Value

/-! Documents that differ in the order of their entries only. The normal form of a document is such
a one, if all parts can be read and no name is repeated. -/

namespace PropertyFinance
set_option autoImplicit false

section Lists
variable {α β γ : Type} {R : α → β → Prop} {S : α → γ → Prop} {xs : List α} {ys : List β}
  {zs : List γ}

theorem exists_of_mem_forall₂ (h : List.Forall₂ R xs ys) {x : α} (hx : x ∈ xs) : ∃ y, R x y := by
  induction h with
  | nil => exact absurd hx List.not_mem_nil
  | @cons x' y xs ys hxy _ ih =>
    rcases List.mem_cons.mp hx with rfl | hmem
    · exact ⟨y, hxy⟩
    · exact ih hmem

/-- Two lists that are related to one list are related to each other. -/
theorem forall₂_of_common {T : γ → β → Prop} (hys : List.Forall₂ R xs ys) (hzs : List.Forall₂ S xs zs)
    (h : ∀ x ∈ xs, ∀ y z, R x y → S x z → T z y) : List.Forall₂ T zs ys := by
  induction hys generalizing zs with
  | nil =>
    cases hzs
    exact .nil
  | @cons x y xs ys hxy _ ih =>
    cases hzs with
    | cons hxz hzs =>
      exact .cons (h x List.mem_cons_self y _ hxy hxz)
        (ih hzs fun x' hx' => h x' (List.mem_cons_of_mem x hx'))

end Lists

namespace Json

section Depth
variable {name : String} {value : Json} {items : List Json} {entries : List (String × Json)}

theorem depth_le_of_mem_items (h : value ∈ items) : value.depth ≤ depthOfItems items := by
  induction items with
  | nil => exact absurd h List.not_mem_nil
  | cons item rest ih =>
    rcases List.mem_cons.mp h with rfl | hmem
    · exact Nat.le_max_left _ _
    · exact Nat.le_trans (ih hmem) (Nat.le_max_right _ _)

theorem depth_le_of_mem_entries (h : (name, value) ∈ entries) :
    value.depth ≤ depthOfEntries entries := by
  induction entries with
  | nil => exact absurd h List.not_mem_nil
  | cons entry rest ih =>
    rcases List.mem_cons.mp h with rfl | hmem
    · exact Nat.le_max_left _ _
    · exact Nat.le_trans (ih hmem) (Nat.le_max_right _ _)

theorem depth_lt_of_mem_array (h : value ∈ items) : value.depth < (array items).depth :=
  Nat.lt_succ_of_le (depth_le_of_mem_items h)

theorem depth_lt_of_mem_object (h : (name, value) ∈ entries) :
    value.depth < (object entries).depth :=
  Nat.lt_succ_of_le (depth_le_of_mem_entries h)

end Depth

/-- Induction over the parts of a document. -/
theorem induction_on_parts {motive : Json → Prop} (json : Json)
    (h : ∀ json : Json, (∀ part : Json, part.depth < json.depth → motive part) → motive json) :
    motive json :=
  (measure depth).wf.induction json h

/-- Entries of one name with related values. -/
inductive Named (R : Json → Json → Prop) : String × Json → String × Json → Prop
  | mk {name : String} {value value' : Json} : R value value' → Named R (name, value) (name, value')

/-- The same document with its entries in some order. All parts can be read and no name is
repeated. -/
inductive Alike : Json → Json → Prop
  | null : Alike null null
  | bool (b : Bool) : Alike (bool b) (bool b)
  | number (n : Numeral) : Alike (number n) (number n)
  | text (s : String) : Alike (text s) (text s)
  | array {items items' : List Json} : List.Forall₂ Alike items items' →
      Alike (array items) (array items')
  | object {entries ordered entries' : List (String × Json)} :
      (entries.map Prod.fst).Nodup → entries.Perm ordered →
      List.Forall₂ (Named Alike) ordered entries' → Alike (object entries) (object entries')

/-- A count of 64 bits. -/
def IsCount : Numeral → Prop
  | .integer n => 0 ≤ n ∧ n < 18446744073709551616
  | .real _ => False

mutual

/-- All parts can be read, all numbers are counts, and no name is repeated. -/
def Proper : Json → Prop
  | array items => ProperItems items
  | object entries => (entries.map Prod.fst).Nodup ∧ ProperEntries entries
  | number n => IsCount n
  | unreadable => False
  | _ => True

def ProperItems : List Json → Prop
  | [] => True
  | item :: rest => Proper item ∧ ProperItems rest

def ProperEntries : List (String × Json) → Prop
  | [] => True
  | (_, value) :: rest => Proper value ∧ ProperEntries rest

end

section Proper
variable {items : List Json} {entries : List (String × Json)}

theorem properItems_iff : ProperItems items ↔ ∀ item ∈ items, item.Proper := by
  induction items with
  | nil => simp [ProperItems]
  | cons item rest ih => simp [ProperItems, ih]

theorem properEntries_iff : ProperEntries entries ↔ ∀ e ∈ entries, e.2.Proper := by
  induction entries with
  | nil => simp [ProperEntries]
  | cons entry rest ih => simp [ProperEntries, ih]

@[simp] theorem proper_null : null.Proper := trivial
@[simp] theorem proper_bool (b : Bool) : (bool b).Proper := trivial
@[simp] theorem proper_number_iff {n : Numeral} : (number n).Proper ↔ IsCount n := Iff.rfl
@[simp] theorem proper_text (s : String) : (text s).Proper := trivial

@[simp] theorem proper_array_iff : (array items).Proper ↔ ∀ item ∈ items, item.Proper :=
  properItems_iff

@[simp] theorem proper_object_iff :
    (object entries).Proper ↔ (entries.map Prod.fst).Nodup ∧ ∀ e ∈ entries, e.2.Proper :=
  and_congr_right fun _ => properEntries_iff

end Proper

theorem Proper.alike_self {json : Json} : json.Proper → json.Alike json := by
  induction json using induction_on_parts with
  | h json ih =>
    intro h
    cases json with
    | null => exact .null
    | bool b => exact .bool b
    | number n => exact .number n
    | text s => exact .text s
    | unreadable => exact h.elim
    | array items =>
      have hitems := proper_array_iff.mp h
      exact .array (List.forall₂_same.mpr fun item hmem =>
        ih item (depth_lt_of_mem_array hmem) (hitems item hmem))
    | object entries =>
      obtain ⟨hnames, hvalues⟩ := proper_object_iff.mp h
      refine .object hnames (.refl _) (List.forall₂_same.mpr fun (name, value) hmem => ?_)
      exact .mk (ih value (depth_lt_of_mem_object hmem) (hvalues _ hmem))

section Normal
variable {name : String}

theorem insertEntry_perm {entries : List (String × Json)} (h : name ∉ entries.map Prod.fst)
    (value : Json) :
    (insertEntry name value entries).Perm ((name, value) :: entries) := by
  induction entries with
  | nil => exact .refl _
  | cons entry rest ih =>
    obtain ⟨hne, hrest⟩ := not_or.mp (mt List.mem_cons.mpr h)
    simp only [insertEntry]
    rw [if_neg hne]
    split
    · exact .refl _
    · exact ((ih hrest).cons entry).trans (.swap _ _ _)

theorem normalItems_eq_some {items normals : List Json} (h : normalItems items = some normals) :
    List.Forall₂ (fun item n => item.normal = some n) items normals := by
  induction items generalizing normals with
  | nil =>
    cases h
    exact .nil
  | cons item rest ih =>
    obtain ⟨n, hn, h⟩ := Option.bind_eq_some_iff.mp h
    obtain ⟨ns, hns, h⟩ := Option.bind_eq_some_iff.mp h
    cases h
    exact .cons hn (ih hns)

theorem normalEntries_eq_some {entries sorted all : List (String × Json)}
    (hnames : ((entries ++ sorted).map Prod.fst).Nodup) (h : normalEntries entries sorted = some all) :
    ∃ normals, List.Forall₂ (Named fun value n => value.normal = some n) entries normals ∧
      all.Perm (normals ++ sorted) := by
  induction entries generalizing sorted with
  | nil =>
    cases h
    exact ⟨[], .nil, .refl _⟩
  | cons entry rest ih =>
    obtain ⟨name, value⟩ := entry
    obtain ⟨n, hn, h⟩ := Option.bind_eq_some_iff.mp h
    have hmiddle : ((rest ++ (name, n) :: sorted).map Prod.fst).Perm
        (((name, value) :: rest ++ sorted).map Prod.fst) := by
      simp
    have hfresh : name ∉ sorted.map Prod.fst := by
      intro hmem
      exact (List.nodup_cons.mp hnames).1 (by simp at hmem ⊢; exact .inr hmem)
    have hinsert := insertEntry_perm hfresh n
    have hnames' : ((rest ++ insertEntry name n sorted).map Prod.fst).Nodup :=
      ((hinsert.append_left rest).map Prod.fst).nodup_iff.mpr (hmiddle.nodup_iff.mpr hnames)
    obtain ⟨normals, hvalues, hall⟩ := ih hnames' h
    refine ⟨(name, n) :: normals, .cons (.mk hn) hvalues, hall.trans ?_⟩
    exact (hinsert.append_left normals).trans List.perm_middle

theorem names_eq_of_forall₂ {R : Json → Json → Prop} {entries entries' : List (String × Json)}
    (h : List.Forall₂ (Named R) entries entries') :
    entries.map Prod.fst = entries'.map Prod.fst := by
  induction h with
  | nil => rfl
  | cons hentry _ ih =>
    cases hentry
    exact congrArg (List.cons _) ih

theorem normalItems_isSome {items : List Json} (h : ∀ item ∈ items, ∃ n, item.normal = some n) :
    ∃ normals, normalItems items = some normals := by
  induction items with
  | nil => exact ⟨[], rfl⟩
  | cons item rest ih =>
    obtain ⟨n, hn⟩ := h item List.mem_cons_self
    obtain ⟨normals, hnormals⟩ := ih fun i hi => h i (List.mem_cons_of_mem item hi)
    exact ⟨n :: normals, by simp [normalItems, hn, hnormals]⟩

theorem normalEntries_isSome {entries : List (String × Json)}
    (h : ∀ e ∈ entries, ∃ n, e.2.normal = some n) (sorted : List (String × Json)) :
    ∃ all, normalEntries entries sorted = some all := by
  induction entries generalizing sorted with
  | nil => exact ⟨sorted, rfl⟩
  | cons entry rest ih =>
    obtain ⟨n, hn⟩ := h entry List.mem_cons_self
    obtain ⟨all, hall⟩ := ih (fun e he => h e (List.mem_cons_of_mem entry he))
      (insertEntry entry.1 n sorted)
    exact ⟨all, by simp [normalEntries, hn, hall]⟩

end Normal

namespace Alike
variable {form json n : Json}

theorem exists_normal : form.Alike json → ∃ n, form.normal = some n := by
  induction form using induction_on_parts generalizing json with
  | h form ih =>
    intro h
    cases h with
    | null => exact ⟨_, rfl⟩
    | bool b => exact ⟨_, rfl⟩
    | number n => exact ⟨_, rfl⟩
    | text s => exact ⟨_, rfl⟩
    | @array items items' h =>
      have hitems : ∀ item ∈ items, ∃ n, item.normal = some n := by
        intro item hitem
        obtain ⟨item', halike⟩ := exists_of_mem_forall₂ h hitem
        exact ih item (depth_lt_of_mem_array hitem) halike
      obtain ⟨normals, hnormals⟩ := normalItems_isSome hitems
      exact ⟨.array normals, by simp [Json.normal, hnormals]⟩
    | @object entries ordered entries' hnames hperm h =>
      have hentries : ∀ e ∈ entries, ∃ n, e.2.normal = some n := by
        rintro ⟨name, value⟩ he
        obtain ⟨entry', hentry⟩ := exists_of_mem_forall₂ h (hperm.subset he)
        cases hentry with
        | mk halike => exact ih value (depth_lt_of_mem_object he) halike
      obtain ⟨all, hall⟩ := normalEntries_isSome hentries []
      exact ⟨.object all, by simp [Json.normal, hall]⟩

/-- The normal form of a form of a document is a form of it, too. -/
theorem normal : form.Alike json → form.normal = some n → n.Alike json := by
  induction form using induction_on_parts generalizing json n with
  | h form ih =>
    intro h hn
    cases h with
    | null => cases hn; exact .null
    | bool b => cases hn; exact .bool b
    | number n => cases hn; exact .number n
    | text s => cases hn; exact .text s
    | @array items items' h =>
      obtain ⟨normals, hnormals, hn⟩ := Option.bind_eq_some_iff.mp hn
      cases hn
      exact .array (forall₂_of_common h (normalItems_eq_some hnormals) fun item hitem item' n =>
        ih item (depth_lt_of_mem_array hitem))
    | @object entries ordered entries' hnames hperm h =>
      obtain ⟨all, hall, hn⟩ := Option.bind_eq_some_iff.mp hn
      cases hn
      obtain ⟨normals, hnormals, hsorted⟩ := normalEntries_eq_some (by simpa using hnames) hall
      -- The form is in its own order; its normal values are brought into that of the document.
      obtain ⟨sorted, hvalues, hperm'⟩ := List.perm_comp_forall₂ hperm.symm hnormals
      have hall' : all.Perm sorted := (by simpa using hsorted : all.Perm normals).trans hperm'.symm
      have hnames' : (all.map Prod.fst).Nodup := by
        rw [(hall'.map _).nodup_iff, ← names_eq_of_forall₂ hvalues, ← (hperm.map _).nodup_iff]
        exact hnames
      refine .object hnames' hall' (forall₂_of_common h hvalues fun (name, value) hmem e e' he he' => ?_)
      cases he with
      | mk halike =>
        cases he' with
        | mk hvalue =>
          exact .mk (ih value (depth_lt_of_mem_object (hperm.symm.subset hmem)) halike hvalue)

end Alike

end Json

end PropertyFinance
