import PropertyFinance.Proofs.Document.Scenarios

/-! Requests read from their documents, and the round trip of all that is assumed and asked for. -/

namespace PropertyFinance
set_option autoImplicit false
open Json

section Optional
variable {A B : Type} {fields : Fields} {names : List String} {entries : List (String × Json)}
  {name : String} {read : Json → Option A} {write : B → Json} {f : B → A} {x : Option B}

/-- A field that is left out where there is no value. -/
theorem Fields.Shows.optional (h : fields.Shows names entries) (name : String)
    (hmeans : ∀ b, Means read (write b) (f b)) (hwrite : ∀ b, write b ≠ .null)
    (hvalue : entries.lookup name = x.map write) (hname : name ∈ names := by decide) :
    fields.withDefault name (readOptional read) none = some (x.map f) := by
  cases x with
  | none => exact h.withDefault_absent hname hvalue
  | some b => exact h.withDefault name ((hmeans b).optional (hwrite b)) hname hvalue

end Optional

namespace CapitalSource

def plain (source : CapitalSource) : CapitalSource := { source with amount := source.amount.plain }

theorem means (source : CapitalSource) : Means ofJson? source.toJson source.plain := by
  obtain ⟨kind, amount, label⟩ := source
  have hproper : (toJson ⟨kind, amount, label⟩).Proper := by
    cases label <;> simp [toJson, ofName, Decimal.toJson, optionalEntry]
  refine Means.record hproper fun fields h => ?_
  have hkind : fields.required "source_kind" (readName SourceKind.names) = some kind :=
    h.required "source_kind" (.choice (by cases kind <;> rfl))
  have hlabel : fields.withDefault "label" (readOptional readText) none = some (label.map id) :=
    h.optional "label" Means.string nofun (by cases label <;> rfl)
  simp [hkind, h.required "amount" (.decimal amount), hlabel, plain]

end CapitalSource

namespace DevelopmentBudget

def plain (budget : DevelopmentBudget) : DevelopmentBudget where
  hardCosts := budget.hardCosts.plain
  softCosts := budget.softCosts.plain
  contingencyPct := budget.contingencyPct.plain

theorem means (budget : DevelopmentBudget) : Means ofJson? budget.toJson budget.plain := by
  have hproper : budget.toJson.Proper := by simp [toJson, Decimal.toJson]
  refine Means.record hproper fun fields h => ?_
  simp [h.withDefault "hard_costs" (.decimal budget.hardCosts),
    h.withDefault "soft_costs" (.decimal budget.softCosts),
    h.withDefault "contingency_pct" (.decimal budget.contingencyPct), plain]

end DevelopmentBudget

namespace CapitalOptions

def plain (options : CapitalOptions) : CapitalOptions where
  sources := options.sources.map (List.map CapitalSource.plain)
  budget := options.budget.map DevelopmentBudget.plain

def entries (options : CapitalOptions) : List (String × Json) :=
  optionalEntry "capital_sources" (Json.ofList CapitalSource.toJson) options.sources
    ++ optionalEntry "development_budget" DevelopmentBudget.toJson options.budget

theorem means_sources (sources : List CapitalSource) :
    Means (readList CapitalSource.ofJson?) (Json.ofList CapitalSource.toJson sources)
      (sources.map CapitalSource.plain) :=
  .ofList fun source _ => source.means

theorem proper_of_mem_entries {options : CapitalOptions} {e : String × Json} (h : e ∈ options.entries) :
    e.2.Proper := by
  obtain ⟨sources, budget⟩ := options
  rcases List.mem_append.mp h with hmem | hmem
  · cases sources with
    | none => exact absurd hmem List.not_mem_nil
    | some sources =>
      cases List.mem_singleton.mp hmem
      exact (means_sources sources).proper
  · cases budget with
    | none => exact absurd hmem List.not_mem_nil
    | some budget =>
      cases List.mem_singleton.mp hmem
      exact budget.means.proper

/-- The sources and the budget of options whose entries stand among others. -/
theorem sources_and_budget {fields : Fields} {names : List String} {others : List (String × Json)}
    (options : CapitalOptions) (h : fields.Shows names others)
    (hnames : "capital_sources" ∈ names ∧ "development_budget" ∈ names)
    (hentries : ∀ name ∈ ["capital_sources", "development_budget"],
      others.lookup name = options.entries.lookup name) :
    fields.withDefault "capital_sources" readSources Option.none = some options.plain.sources ∧
      fields.withDefault "development_budget" readBudget Option.none = some options.plain.budget := by
  obtain ⟨sources, budget⟩ := options
  constructor
  · refine h.optional "capital_sources" means_sources nofun ?_ hnames.1
    rw [hentries _ (by decide)]
    cases sources <;> cases budget <;> rfl
  · refine h.optional "development_budget" DevelopmentBudget.means nofun ?_ hnames.2
    rw [hentries _ (by decide)]
    cases sources <;> cases budget <;> rfl

theorem means (options : CapitalOptions) : Means ofJson? options.toJson options.plain := by
  have hproper : (object options.entries).Proper := by
    refine proper_object_iff.mpr ⟨?_, fun e => proper_of_mem_entries⟩
    obtain ⟨sources, budget⟩ := options
    cases sources <;> cases budget <;> simp [entries, optionalEntry]
  refine Means.record hproper fun fields h => ?_
  obtain ⟨hsources, hbudget⟩ := options.sources_and_budget h (by decide) fun _ _ => rfl
  simp [hsources, hbudget]

end CapitalOptions

namespace PromoteTier

def plain (tier : PromoteTier) : PromoteTier := ⟨tier.hurdleIrrPct.plain, tier.gpSplitPct.plain⟩

theorem means (tier : PromoteTier) : Means ofJson? tier.toJson tier.plain := by
  have hproper : tier.toJson.Proper := by simp [toJson, Decimal.toJson]
  refine Means.record hproper fun fields h => ?_
  simp [h.required "hurdle_irr_pct" (.decimal tier.hurdleIrrPct),
    h.required "gp_split_pct" (.decimal tier.gpSplitPct), plain]

end PromoteTier

namespace WaterfallTerms

def plain (terms : WaterfallTerms) : WaterfallTerms where
  totalEquity := terms.totalEquity.plain
  gpCoinvestPct := terms.gpCoinvestPct.plain
  preferredReturnPct := terms.preferredReturnPct.plain
  catchUpPct := terms.catchUpPct.plain
  promoteTiers := terms.promoteTiers.map PromoteTier.plain

theorem means (terms : WaterfallTerms) : Means ofJson? terms.toJson terms.plain := by
  have htiers : Means (readList PromoteTier.ofJson?) (.ofList PromoteTier.toJson terms.promoteTiers)
      (terms.promoteTiers.map PromoteTier.plain) := .ofList fun tier _ => tier.means
  have hproper : terms.toJson.Proper := by simp [toJson, Decimal.toJson, htiers.proper]
  refine Means.record hproper fun fields h => ?_
  simp [h.required "total_equity" (.decimal terms.totalEquity),
    h.required "gp_coinvest_pct" (.decimal terms.gpCoinvestPct),
    h.withDefault "preferred_return_pct" (.decimal terms.preferredReturnPct),
    h.withDefault "catch_up_pct" (.decimal terms.catchUpPct),
    h.withDefault "promote_tiers" htiers, plain]

end WaterfallTerms

namespace GridRequest

def plain (request : GridRequest) : GridRequest :=
  { request with
    rowOffsets := request.rowOffsets.map (List.map Decimal.plain)
    colOffsets := request.colOffsets.map (List.map Decimal.plain)
    options := request.options.plain }

theorem means_offsets (offsets : List Decimal) :
    Means (readList Decimal.ofJson?) (.ofDecimals offsets) (offsets.map Decimal.plain) :=
  .ofList fun d _ => .decimal d

theorem means (request : GridRequest) : Means ofJson? request.toJson request.plain := by
  obtain ⟨rowAxis, colAxis, metric, rowOffsets, colOffsets, options⟩ := request
  have hproper : (toJson ⟨rowAxis, colAxis, metric, rowOffsets, colOffsets, options⟩).Proper := by
    cases rowOffsets <;> cases colOffsets <;>
      simp [toJson, ofName, optionalEntry, (means_offsets _).proper, options.means.proper]
  refine Means.record hproper fun fields h => ?_
  have haxis (axis : Axis) : Means (readName Axis.names) (.ofName Axis.names axis) axis :=
    .choice (by cases axis <;> rfl)
  have hmetric : Means (readName Metric.names) (.ofName Metric.names metric) metric :=
    .choice (by cases metric <;> rfl)
  have hrow : fields.withDefault "row_offsets" readOffsets none =
      some (rowOffsets.map (List.map Decimal.plain)) :=
    h.optional "row_offsets" means_offsets nofun (by cases rowOffsets <;> cases colOffsets <;> rfl)
  have hcol : fields.withDefault "col_offsets" readOffsets none =
      some (colOffsets.map (List.map Decimal.plain)) :=
    h.optional "col_offsets" means_offsets nofun (by cases rowOffsets <;> cases colOffsets <;> rfl)
  have hoptions : fields.withDefault "options" CapitalOptions.ofJson? .none = some options.plain :=
    h.withDefault "options" options.means (by decide)
      (by cases rowOffsets <;> cases colOffsets <;> rfl)
  simp [h.required "row_axis" (haxis rowAxis), h.required "col_axis" (haxis colAxis),
    h.required "metric" hmetric, hrow, hcol, hoptions, plain]

end GridRequest

/-- What is assumed and asked for comes back from its document as it was, if none of its zeros has a
sign. In the document of assumptions the entries that have defaults may be deleted at any level, and
just these come back as their defaults. -/
theorem reading_undoes_writing :
    (∀ assumptions : Assumptions, assumptions.plain = assumptions →
      Means Assumptions.ofJson? assumptions.toJson assumptions ∧
      ∀ drop : Deletion, drop.Spares StressBundle.requiredNames →
        Means Assumptions.ofJson? (assumptions.toJson.prune drop) (assumptions.reset drop)) ∧
    (∀ options : CapitalOptions, options.plain = options →
      Means CapitalOptions.ofJson? options.toJson options) ∧
    (∀ terms : WaterfallTerms, terms.plain = terms →
      Means WaterfallTerms.ofJson? terms.toJson terms) ∧
    (∀ request : GridRequest, request.plain = request →
      Means GridRequest.ofJson? request.toJson request) ∧
    (∀ bundle : StressBundle Assumptions, Assumptions.plainBundle bundle = bundle →
      Means (StressBundle.ofJson? Assumptions.ofJson?) (Assumptions.bundleToJson bundle) bundle) := by
  refine ⟨fun assumptions hplain => ⟨?_, fun drop hdrop => ?_⟩, fun options hplain => ?_,
    fun terms hplain => ?_, fun request hplain => ?_, fun bundle hplain => ?_⟩
  · have h := assumptions.means
    rwa [hplain] at h
  · have h := assumptions.means_prune hdrop
    rwa [hplain] at h
  · have h := options.means
    rwa [hplain] at h
  · have h := terms.means
    rwa [hplain] at h
  · have h := request.means
    rwa [hplain] at h
  · have h := Assumptions.means_bundle bundle
    rwa [hplain] at h

/-- A warehouse and a scenario in which it is held longer, to which no more scenarios are attached. -/
def stressedWarehouse : Assumptions :=
  let deal : Deal := { Deal.defaults with
    acquisition := ⟨.ofScaled 125000000 2, .ofScaled 175 2, 7⟩
    financing := ⟨.ofScaled 60 0, .ofScaled 5250 3, 25⟩ }
  let held : Deal := { deal with acquisition := { deal.acquisition with holdYears := 9 } }
  ⟨deal, some ⟨[⟨"held", "Held Longer", .ofScaled 400 1, ⟨held, some ⟨[]⟩⟩⟩]⟩⟩

/-- The entries at these places. -/
def Deletion.ofPlaces (places : List (List Step × String)) : Deletion :=
  fun path name => places.contains (path, name)

theorem Deletion.spares_ofPlaces {places : List (List Step × String)} {names : List String}
    (h : ∀ place ∈ places, place.2 ∉ names) : (Deletion.ofPlaces places).Spares names := by
  intro path name hname
  refine Bool.eq_false_iff.mpr fun hcontains => ?_
  exact h (path, name) (List.contains_iff_mem.mp hcontains) hname

theorem reading_undoes_writing_stressed_warehouse :
    let inner := [Step.entry "stress_scenario_bundle", .entry "scenarios", .item 0, .entry "assumptions"]
    let drop := Deletion.ofPlaces
      [([], "financing"), ([.entry "acquisition"], "purchase_price"), (inner, "income"),
        (inner ++ [.entry "acquisition"], "closing_costs_pct")]
    stressedWarehouse.plain = stressedWarehouse ∧ drop.Spares StressBundle.requiredNames ∧
      Assumptions.ofJson? (stressedWarehouse.toJson.prune drop) =
        some (stressedWarehouse.reset drop) :=
  have hplain : stressedWarehouse.plain = stressedWarehouse := rfl
  have hspares := Deletion.spares_ofPlaces (by decide)
  ⟨hplain, hspares, ((reading_undoes_writing.1 stressedWarehouse hplain).2 _ hspares).read_eq⟩

end PropertyFinance
