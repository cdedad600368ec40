import PropertyFinance.Proofs.Document.Alike
import PropertyFinance.Proofs.Document.DecimalText

/-! What a document means to a reader: the value that it gets from every form of the document. A
record is read from the fields that it looks up, so their order does not matter. -/

namespace PropertyFinance
set_option autoImplicit false

namespace Json

section Lookup
variable {name : String} {value : Json} {entries entries' : List (String × Json)}

theorem lookup_eq_some_iff (hnames : (entries.map Prod.fst).Nodup) :
    entries.lookup name = some value ↔ (name, value) ∈ entries := by
  constructor
  · intro h
    obtain ⟨before, after, rfl, -⟩ := List.lookup_eq_some_iff.mp h
    simp
  · intro h
    obtain ⟨before, after, rfl⟩ := List.append_of_mem h
    refine List.lookup_eq_some_iff.mpr ⟨before, after, rfl, fun e he => bne_iff_ne.mpr ?_⟩
    rintro rfl
    have hparts := List.nodup_append.mp (List.map_append ▸ hnames)
    exact hparts.2.2 e.1 (List.mem_map_of_mem he) e.1 (by simp) rfl

theorem lookup_eq_of_perm (hnames : (entries.map Prod.fst).Nodup) (h : entries.Perm entries') :
    entries.lookup name = entries'.lookup name := by
  have hnames' : (entries'.map Prod.fst).Nodup := (h.map _).nodup_iff.mp hnames
  refine Option.ext fun value => ?_
  rw [lookup_eq_some_iff hnames, lookup_eq_some_iff hnames', h.mem_iff]

theorem lookup_rel {R : Json → Json → Prop} (h : List.Forall₂ (Named R) entries entries') :
    Option.Rel R (entries.lookup name) (entries'.lookup name) := by
  induction h with
  | nil => exact .none
  | cons hentry _ ih =>
    cases hentry with
    | @mk own _ _ hvalue =>
      by_cases hname : name = own
      · subst hname
        simpa using Option.Rel.some hvalue
      · simpa [List.lookup_cons, beq_eq_false_iff_ne.mpr hname] using ih

theorem lookup_filter {p : String → Bool} (hp : p name = true) :
    (entries.filter fun e => p e.1).lookup name = entries.lookup name := by
  induction entries with
  | nil => rfl
  | cons entry rest ih =>
    obtain ⟨own, value⟩ := entry
    by_cases hname : name = own
    · subst hname
      simp [hp]
    · have hne : (name == own) = false := beq_eq_false_iff_ne.mpr hname
      cases hown : p own <;> simp [hown, List.lookup_cons, hne, ih]

end Lookup

@[simp] theorem proper_ofCount (n : UInt32) : (ofCount n).Proper :=
  ⟨Int.natCast_nonneg _, Int.ofNat_lt.mpr (Nat.lt_trans n.toNat_lt (by decide))⟩

/-- The document is to be read as this value, in whatever order its entries stand. -/
structure Means {A : Type} (read : Json → Option A) (json : Json) (a : A) : Prop where
  proper : json.Proper
  reads : ∀ {form : Json}, form.Alike json → read form = some a

namespace Means
variable {A B : Type} {read : Json → Option A} {json : Json} {a : A}

theorem read_eq (h : Means read json a) : read json = some a := h.reads h.proper.alike_self

/-- The document with its entries in order is read as the same value. -/
theorem normal (h : Means read json a) : ∃ n, json.normal = some n ∧ read n = some a := by
  obtain ⟨n, hn⟩ := h.proper.alike_self.exists_normal
  exact ⟨n, hn, h.reads (h.proper.alike_self.normal hn)⟩

theorem text {s : String} (h : read (.text s) = some a) : Means read (.text s) a := by
  refine ⟨trivial, fun halike => ?_⟩
  cases halike
  exact h

theorem decimal (d : Decimal) : Means Decimal.ofJson? d.toJson d.plain :=
  text (Decimal.ofText?_toText d)

theorem string (s : String) : Means readText (.text s) s := text rfl

theorem count (n : UInt32) : Means readCount (.ofCount n) n := by
  refine ⟨proper_ofCount n, fun halike => ?_⟩
  cases halike
  have hlt : (n.toNat : Int) < 4294967296 := Int.ofNat_lt.mpr n.toNat_lt
  simp [readCount, hlt]

theorem choice [DecidableEq A] {choices : List (String × A)} {a : A}
    (h : choices.lookup (nameOf choices a) = some a) :
    Means (readName choices) (ofName choices a) a := text h

/-- A value of its own kind for `null`, which the document is not. -/
theorem optional (h : Means read json a) (hjson : json ≠ .null) :
    Means (readOptional read) json (some a) := by
  refine ⟨h.proper, fun {form} halike => ?_⟩
  have hread := h.reads halike
  cases form with
  | null =>
    cases halike
    exact absurd rfl hjson
  | _ => simp [readOptional, hread]

theorem list {items : List Json} {as : List A}
    (h : List.Forall₂ (Means read) items as) : Means (readList read) (.array items) as := by
  constructor
  · rw [proper_array_iff]
    intro item hitem
    obtain ⟨a, ha⟩ := exists_of_mem_forall₂ h hitem
    exact ha.proper
  · intro form halike
    cases halike with
    | @array forms _ hforms =>
      show forms.mapM read = some as
      induction hforms generalizing as with
      | nil =>
        cases h
        rfl
      | cons hform _ ih =>
        cases h with
        | cons hitem hrest => simp [hitem.reads hform, ih hrest]

theorem ofList {xs : List B} {write : B → Json} {f : B → A}
    (h : ∀ x ∈ xs, Means read (write x) (f x)) :
    Means (readList read) (Json.ofList write xs) (xs.map f) := by
  refine list ?_
  rw [List.forall₂_map_left_iff, List.forall₂_map_right_iff, List.forall₂_same]
  exact h

end Means

end Json

namespace Fields
open Json

/-- The fields of these names are those of a form of an object. -/
def Shows (fields : Fields) (names : List String) (entries : List (String × Json)) : Prop :=
  ∀ name ∈ names, Option.Rel Alike (fields.get? name) (entries.lookup name)

theorem hasRepeats_eq_false {entries : List (String × Json)} (h : (entries.map Prod.fst).Nodup) :
    hasRepeats entries = false := by
  induction entries with
  | nil => rfl
  | cons entry rest ih =>
    obtain ⟨hfresh, hrest⟩ := List.nodup_cons.mp h
    simp only [hasRepeats, ih hrest, Bool.or_false, List.any_eq_false, beq_iff_eq]
    intro e he hname
    exact hfresh (hname ▸ List.mem_map_of_mem he)

theorem exists_shows {form : Json} {entries : List (String × Json)} (names : List String)
    (h : form.Alike (.object entries)) :
    ∃ fields, Fields.ofJson? names form = some fields ∧ fields.Shows names entries := by
  cases h with
  | @object own ordered _ hnames hperm hvalues =>
    have hknown : ((own.filter fun e => names.contains e.1).map Prod.fst).Nodup :=
      hnames.sublist (List.filter_sublist.map _)
    refine ⟨_, by simp only [Fields.ofJson?, hasRepeats_eq_false hknown]; rfl, fun name hname => ?_⟩
    have hget : (own.filter fun e => names.contains e.1).lookup name = own.lookup name :=
      lookup_filter (List.contains_iff_mem.mpr hname)
    show Option.Rel Alike ((own.filter fun e => names.contains e.1).lookup name) _
    rw [hget, lookup_eq_of_perm hnames hperm]
    exact lookup_rel hvalues

end Fields

/-- A record means what is made of its fields. -/
theorem Json.Means.record {A : Type} {names : List String} {f : Fields → Option A} {a : A}
    {entries : List (String × Json)} (hproper : (object entries).Proper)
    (h : ∀ fields : Fields, fields.Shows names entries → f fields = some a) :
    Means (fun json => Fields.ofJson? names json >>= f) (object entries) a := by
  refine ⟨hproper, fun halike => ?_⟩
  obtain ⟨fields, hfields, hshows⟩ := Fields.exists_shows names halike
  simp only [hfields]
  exact h fields hshows

namespace Fields.Shows
open Json
variable {A : Type} {fields : Fields} {names : List String} {entries : List (String × Json)}
  {name : String} {value : Json} {read : Json → Option A} {a default : A}

theorem get?_of_lookup (h : fields.Shows names entries) (hname : name ∈ names)
    (hvalue : entries.lookup name = some value) :
    ∃ form, fields.get? name = some form ∧ form.Alike value := by
  have hrel := h name hname
  rw [hvalue] at hrel
  generalize fields.get? name = found at hrel ⊢
  cases hrel with
  | some halike => exact ⟨_, rfl, halike⟩

theorem get?_of_absent (h : fields.Shows names entries) (hname : name ∈ names)
    (habsent : entries.lookup name = none) : fields.get? name = none := by
  have hrel := h name hname
  rw [habsent] at hrel
  generalize fields.get? name = found at hrel ⊢
  cases hrel
  rfl

theorem required (h : fields.Shows names entries) (name : String) (hmeans : Means read value a)
    (hname : name ∈ names := by decide) (hvalue : entries.lookup name = some value := by rfl) :
    fields.required name read = some a := by
  obtain ⟨form, hform, halike⟩ := h.get?_of_lookup hname hvalue
  simp only [Fields.required, hform]
  exact hmeans.reads halike

theorem withDefault (h : fields.Shows names entries) (name : String) (hmeans : Means read value a)
    (hname : name ∈ names := by decide) (hvalue : entries.lookup name = some value := by rfl) :
    fields.withDefault name read default = some a := by
  obtain ⟨form, hform, halike⟩ := h.get?_of_lookup hname hvalue
  simp only [Fields.withDefault, hform]
  exact hmeans.reads halike

theorem withDefault_absent (h : fields.Shows names entries) (hname : name ∈ names)
    (habsent : entries.lookup name = none) :
    fields.withDefault name read default = some default := by
  simp only [Fields.withDefault, h.get?_of_absent hname habsent]

end Fields.Shows

end PropertyFinance
