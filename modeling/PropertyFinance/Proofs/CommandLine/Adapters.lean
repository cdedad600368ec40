import PropertyFinance.CommandLine.Run
import PropertyFinance.Proofs.Decimal.Checked
import PropertyFinance.Proofs.Document.Nesting
import PropertyFinance.Proofs.Document.RoundTrip

/-! The functions on JSON texts and the commands. They are given the same deal in documents of different
shapes, read the same from them and give the same answers, unless only one of the documents can be read. -/

namespace PropertyFinance
set_option autoImplicit false
open Json Json.Reader

section Entry
variable {form : Json} {entries : List (String × Json)} {name : String}

theorem Json.Alike.get?_eq_none_iff (h : form.Alike (.object entries)) :
    form.get? name = none ↔ entries.lookup name = none := by
  have hrel : Option.Rel Alike (form.get? name) (entries.lookup name) := by
    cases h with
    | object hnames hperm hvalues =>
      rw [Json.get?, lookup_eq_of_perm hnames hperm]
      exact lookup_rel hvalues
  generalize form.get? name = found, entries.lookup name = found' at hrel
  cases hrel <;> simp

end Entry

namespace DealInput

def toJson (input : DealInput) : Json :=
  .object [("assumptions", input.assumptions.toJson), ("options", input.options.toJson)]

/-- The options are given beside the assumptions. -/
def document (input : DealInput) : Json :=
  .object (("assumptions", input.assumptions.toJson) :: input.options.entries)

def plain (input : DealInput) : DealInput := ⟨input.assumptions.plain, input.options.plain⟩

theorem means (input : DealInput) : Means ofJson? input.toJson input.plain := by
  have hassumptions := input.assumptions.means
  have hoptions := input.options.means
  have hproper : input.toJson.Proper := by simp [toJson, hassumptions.proper, hoptions.proper]
  refine Means.record hproper fun fields h => ?_
  simp [h.required "assumptions" hassumptions, h.withDefault "options" hoptions, plain]

/-- The deal of a document that may hold more than that. -/
theorem means_wrapped {entries : List (String × Json)} (input : DealInput)
    (hproper : (object entries).Proper)
    (hassumptions : entries.lookup "assumptions" = some input.assumptions.toJson)
    (hoptions : ∀ name ∈ ["capital_sources", "development_budget"],
      entries.lookup name = input.options.entries.lookup name) :
    Means ofDocument? (.object entries) input.plain := by
  refine ⟨hproper, fun {form} halike => ?_⟩
  have hwrapped : form.get? "assumptions" ≠ none := by
    rw [Ne, halike.get?_eq_none_iff, hassumptions]
    exact Option.some_ne_none _
  obtain ⟨fields, hfields, hshows⟩ :=
    Fields.exists_shows ["assumptions", "capital_sources", "development_budget"] halike
  obtain ⟨hsources, hbudget⟩ := input.options.sources_and_budget hshows (by decide) hoptions
  have hrequired := hshows.required "assumptions" input.assumptions.means (by decide) hassumptions
  unfold ofDocument?
  split
  · exact absurd ‹_› hwrapped
  · simp [hfields, hrequired, hsources, hbudget, plain]

theorem means_document (input : DealInput) : Means ofDocument? input.document input.plain := by
  have hproper : input.document.Proper := by
    have hentries := proper_object_iff.mp input.options.means.proper
    refine proper_object_iff.mpr ⟨?_, List.forall_mem_cons.mpr
      ⟨input.assumptions.means.proper, hentries.2⟩⟩
    obtain ⟨assumptions, sources, budget⟩ := input
    cases sources <;> cases budget <;> simp [CapitalOptions.entries, optionalEntry]
  refine means_wrapped input hproper rfl fun name hname => ?_
  rcases List.mem_pair.mp hname with rfl | rfl <;> rfl

/-- Assumptions alone are a document, too. -/
theorem means_bare (assumptions : Assumptions) :
    Means ofDocument? assumptions.toJson ⟨assumptions.plain, .none⟩ := by
  refine ⟨assumptions.means.proper, fun {form} halike => ?_⟩
  have hread := assumptions.means.reads halike
  have hbare : form.get? "assumptions" = none := by
    obtain ⟨deal, bundle⟩ := assumptions
    exact halike.get?_eq_none_iff.mpr (by cases bundle <;> rfl)
  simp [ofDocument?, hbare, hread]

end DealInput

namespace WaterfallInput

def toJson (input : WaterfallInput) : Json :=
  .object [
    ("structure", input.terms.toJson),
    ("assumptions", input.assumptions.toJson),
    ("options", input.options.toJson)]

def document (input : WaterfallInput) : Json :=
  .object ([("structure", input.terms.toJson), ("assumptions", input.assumptions.toJson)]
    ++ input.options.entries)

def plain (input : WaterfallInput) : WaterfallInput :=
  ⟨input.terms.plain, input.assumptions.plain, input.options.plain⟩

theorem means (input : WaterfallInput) : Means ofJson? input.toJson input.plain := by
  have hterms := input.terms.means
  have hassumptions := input.assumptions.means
  have hoptions := input.options.means
  have hproper : input.toJson.Proper := by
    simp [toJson, hterms.proper, hassumptions.proper, hoptions.proper]
  refine Means.record hproper fun fields h => ?_
  simp [h.required "structure" hterms, h.required "assumptions" hassumptions,
    h.withDefault "options" hoptions, plain]

theorem means_document (input : WaterfallInput) : Means ofDocument? input.document input.plain := by
  have hproper : input.document.Proper := by
    have hentries := proper_object_iff.mp input.options.means.proper
    refine proper_object_iff.mpr ⟨?_, List.forall_mem_cons.mpr ⟨input.terms.means.proper,
      List.forall_mem_cons.mpr ⟨input.assumptions.means.proper, hentries.2⟩⟩⟩
    obtain ⟨terms, assumptions, sources, budget⟩ := input
    cases sources <;> cases budget <;> simp [CapitalOptions.entries, optionalEntry]
  have hdeal : Means DealInput.ofDocument? input.document
      (DealInput.plain ⟨input.assumptions, input.options⟩) := by
    refine DealInput.means_wrapped ⟨input.assumptions, input.options⟩ hproper rfl fun name hname => ?_
    rcases List.mem_pair.mp hname with rfl | rfl <;> rfl
  refine ⟨hproper, fun {form} halike => ?_⟩
  obtain ⟨fields, hfields, hshows⟩ := Fields.exists_shows ["structure"] halike
  simp [ofDocument?, hfields, hshows.required "structure" input.terms.means, hdeal.reads halike,
    DealInput.plain, plain]

end WaterfallInput

namespace GridInput

def toJson (input : GridInput) : Json :=
  .object [("assumptions", input.assumptions.toJson), ("request", input.request.toJson)]

def plain (input : GridInput) : GridInput := ⟨input.assumptions.plain, input.request.plain⟩

theorem means (input : GridInput) : Means ofJson? input.toJson input.plain := by
  have hassumptions := input.assumptions.means
  have hrequest := input.request.means
  have hproper : input.toJson.Proper := by simp [toJson, hassumptions.proper, hrequest.proper]
  refine Means.record hproper fun fields h => ?_
  simp [h.required "assumptions" hassumptions, h.required "request" hrequest, plain]

end GridInput

/-- Only the entry with the time that was taken. -/
def Deletion.time : Deletion :=
  fun path name => path == [.entry "metadata"] && name == "computation_time_us"

theorem Deletion.time_within {name : String} (h : name ≠ "metadata") :
    Deletion.time.within (.entry name) = .nothing := by
  funext path own
  simp [Deletion.within, Deletion.time, Deletion.nothing, h]

section Answers
variable {B R : Type} {writeBasis : B → Json} {writeResult : R → Json}

/-- The time is all in which two documents of an analysis may differ. -/
theorem Analysis.prune_time (analysis : Analysis B R) (elapsed : Option Nat) :
    (analysis.toJson writeBasis writeResult elapsed).prune .time =
      analysis.toJson writeBasis writeResult none := by
  have hparts (name : String) (value : Json) (h : name ≠ "metadata") :
      value.prune (Deletion.time.within (.entry name)) = value := by
    rw [Deletion.time_within h, prune_nothing]
  cases elapsed <;>
    simp [Analysis.toJson, Json.prune, pruneEntries, hparts, Deletion.time, Deletion.within, optionalEntry]

/-- Both adapters fail alike, or their answers are the same apart from the time that was taken. -/
inductive SameAnswer (same : Json → Json → Prop) :
    Service.Reply → CommandLine.Attempt CommandLine.Report → Prop
  | failed (cause : Failure) : SameAnswer same (.error (.failed cause)) (.error (.failed cause))
  | answered {json : Json} {report : CommandLine.Report} :
      (∀ elapsed, same json ((report elapsed).prune .time)) → SameAnswer same (.ok json) (.ok report)

theorem sameAnswer_of_outcome (outcome : Outcome (Analysis B R)) :
    SameAnswer Eq
      (Except.mapError ServiceError.failed (outcome >>= fun analysis =>
        pure (analysis.toJson writeBasis writeResult none)))
      ((liftM outcome : CommandLine.Attempt (Analysis B R)) >>= fun analysis =>
        pure (.ofAnalysis writeBasis writeResult analysis)) := by
  cases outcome with
  | error cause => exact .failed cause
  | ok analysis => exact .answered fun elapsed => (analysis.prune_time (some elapsed)).symm

end Answers

/-- Same entries apart from the warnings, whose order may differ. -/
structure SameButOrder (json json' : Json) : Prop where
  parts : ∀ name, name ≠ "warnings" → json.get? name = json'.get? name
  warnings : ∃ texts texts', json.get? "warnings" = some (.array texts) ∧
    json'.get? "warnings" = some (.array texts') ∧ texts.Perm texts'

theorem Analysis.sameButOrder {B R : Type} {writeBasis : B → Json} {writeResult : R → Json}
    (analysis : Analysis B R) {warnings warnings' : List String} (h : warnings.Perm warnings') :
    SameButOrder ({ analysis with warnings }.toJson writeBasis writeResult none)
      ({ analysis with warnings := warnings' }.toJson writeBasis writeResult none) where
  parts name hname := by
    simp only [Analysis.toJson, Json.get?, List.lookup_cons, beq_eq_false_iff_ne.mpr hname]
  warnings := ⟨_, _, rfl, rfl, h.map _⟩

/-- The adapters put the warnings of the pro forma and those of the waterfall together in different
orders. -/
theorem sameAnswer_waterfall (input : WaterfallInput) :
    SameAnswer SameButOrder (Except.mapError ServiceError.failed (Service.waterfallRun input))
      ((liftM (analyseWaterfall input false) : CommandLine.Attempt _) >>= fun analysis =>
        pure (.ofAnalysis WaterfallBasis.toJson WaterfallResults.toJson analysis)) := by
  unfold Service.waterfallRun analyseWaterfall
  cases ProForma.analyse input.assumptions input.options with
  | error cause => exact .failed cause
  | ok proForma =>
    simp only [ok_bind, Bool.false_eq_true, if_false]
    cases Waterfall.ofProForma input.terms proForma.result with
    | error cause => exact .failed cause
    | ok analysis =>
      refine .answered fun elapsed => ?_
      rw [CommandLine.Report.ofAnalysis, Analysis.prune_time]
      exact analysis.sameButOrder List.perm_append_comm

/-- A text from which a form of a document is read. -/
def Service.Holds (text : String) (document : Json) : Prop :=
  ∃ form, Json.ofText? text = some form ∧ form.Alike document

/-- Texts hold the documents that are written in them, up to the depth that can be read. -/
theorem Service.holds_render {document : Json} (hproper : document.Proper)
    (hdepth : document.depth ≤ maxDepth) : Service.Holds document.render document :=
  ⟨document, ofText?_render_of_depth_le hproper hdepth, hproper.alike_self⟩

theorem Service.Holds.serve_eq {A : Type} {text : String} {document : Json} {read : Json → Option A}
    {a : A} (h : Service.Holds text document) (hmeans : Means read document a) (run : A → Outcome Json) :
    Service.serve read run text = Except.mapError ServiceError.failed (run a) := by
  obtain ⟨form, htext, halike⟩ := h
  simp only [Service.serve, htext, Option.bind_some, hmeans.reads halike]

namespace CommandLine

/-- A form of a document stands in the file of this path, or else in the standard input. -/
def Holds (around : Surroundings) (path : Option String) (document : Json) : Prop :=
  ∃ form, fetch around (.ofInput path) = .ok (some form) ∧ form.Alike document

theorem Holds.readAs_eq {A : Type} {around : Surroundings} {path : Option String} {document : Json}
    {read : Json → Option A} {a : A} (h : Holds around path document) (hmeans : Means read document a) :
    ∃ form, fetch around (.ofInput path) = .ok (some form) ∧
      ∀ advice, readAs read advice (some form) = .ok a := by
  obtain ⟨form, hfetch, halike⟩ := h
  exact ⟨form, hfetch, fun advice => by simp only [readAs, hmeans.reads halike]⟩

theorem holds_render {around : Surroundings} {path : String} {document : Json}
    (hfile : around.entryAt (absolutePath around.directory path) = .file document.render)
    (hpath : isYamlPath (absolutePath around.directory path) = false) (hproper : document.Proper)
    (hdepth : document.depth ≤ maxDepth) : Holds around (some path) document := by
  obtain ⟨form, hform⟩ := hproper.alike_self.exists_normal
  have htext : normalOfText? document.render = some form := by
    rw [normalOfText?, ofText?_render_of_depth_le hproper hdepth]
    exact hform
  refine ⟨form, ?_, hproper.alike_self.normal hform⟩
  simp only [Source.ofInput, fetch, readFile, hfile, hpath, htext]
  rfl

/-- The options that ask for a grid. Offsets are read from their texts. -/
def GridArguments.ofRequest (path : Option String) (request : GridRequest) : GridArguments where
  input := path
  rowAxis := request.rowAxis
  colAxis := request.colAxis
  metric := request.metric
  rowOffsets := request.rowOffsets.map (List.map Decimal.plain)
  colOffsets := request.colOffsets.map (List.map Decimal.plain)

/-- The deal's document, or its assumptions alone if it has no options. -/
def HoldsDeal (around : Surroundings) (path : Option String) (input : DealInput) : Prop :=
  Holds around path input.document ∨
    input.options = .none ∧ Holds around path input.assumptions.toJson

theorem HoldsDeal.readAs_eq {around : Surroundings} {path : Option String} {input : DealInput}
    (h : HoldsDeal around path input) :
    ∃ form, fetch around (.ofInput path) = .ok (some form) ∧
      ∀ advice, readAs DealInput.ofDocument? advice (some form) = .ok input.plain := by
  rcases h with h | ⟨hnone, h⟩
  · exact h.readAs_eq input.means_document
  · have hplain : input.plain = ⟨input.assumptions.plain, .none⟩ := by
      rw [DealInput.plain, hnone]
      rfl
    rw [hplain]
    exact h.readAs_eq (DealInput.means_bare input.assumptions)

theorem Command.run_of_fetch {command : Command} {around : Surroundings} {document : Option Json}
    (h : fetch around command.source = .ok document) : command.run around = command.runOn document := by
  rw [Command.run, h]

theorem ProFormaArguments.override_none (path : Option String) (assumptions : Assumptions) :
    (ProFormaArguments.mk path none).override assumptions = assumptions := by
  cases assumptions
  rfl

end CommandLine

open CommandLine in
/-- The functions and the commands agree on every deal whose documents they can read. -/
theorem adapters_agree (text : String) (around : Surroundings) (path : Option String) :
    (∀ input : WaterfallInput, Service.Holds text input.toJson → Holds around path input.document →
      SameAnswer SameButOrder (Service.computeWaterfall text)
        ((Command.waterfall ⟨path, false⟩).run around)) ∧
    (∀ input : DealInput, Service.Holds text input.toJson → HoldsDeal around path input →
      SameAnswer Eq (Service.computeProForma text) ((Command.proForma ⟨path, none⟩).run around) ∧
      SameAnswer Eq (Service.computeStress text) ((Command.stress ⟨path, false⟩).run around)) ∧
    (∀ input : GridInput, Service.Holds text input.toJson →
      HoldsDeal around path ⟨input.assumptions, input.request.options⟩ →
      SameAnswer Eq (Service.computeGrid text)
        ((Command.sensitivity (.ofRequest path input.request)).run around)) := by
  refine ⟨fun input htext hdocument => ?_, fun input htext hdeal => ⟨?_, ?_⟩,
    fun input htext hdeal => ?_⟩
  -- Both sides come down to one run on the same values; what is left is how each of them reports it.
  · obtain ⟨form, hfetch, hread⟩ := hdocument.readAs_eq input.means_document
    have hrun : (Command.waterfall ⟨path, false⟩).run around = _ := Command.run_of_fetch hfetch
    rw [Service.computeWaterfall, htext.serve_eq input.means, hrun]
    simp only [Command.runOn, WaterfallArguments.run, hread, ok_bind]
    exact sameAnswer_waterfall input.plain
  · obtain ⟨form, hfetch, hread⟩ := hdeal.readAs_eq
    have hrun : (Command.proForma ⟨path, none⟩).run around = _ := Command.run_of_fetch hfetch
    rw [Service.computeProForma, htext.serve_eq input.means, hrun]
    simp only [Command.runOn, ProFormaArguments.run, hread, ok_bind, ProFormaArguments.override_none]
    exact sameAnswer_of_outcome _
  · obtain ⟨form, hfetch, hread⟩ := hdeal.readAs_eq
    have hrun : (Command.stress ⟨path, false⟩).run around = _ := Command.run_of_fetch hfetch
    rw [Service.computeStress, htext.serve_eq input.means, hrun]
    simp only [Command.runOn, StressArguments.run, hread, ok_bind]
    exact sameAnswer_of_outcome _
  · obtain ⟨form, hfetch, hread⟩ := hdeal.readAs_eq
    have hrun : (Command.sensitivity (.ofRequest path input.request)).run around = _ :=
      Command.run_of_fetch hfetch
    rw [Service.computeGrid, htext.serve_eq input.means, hrun]
    simp only [Command.runOn, GridArguments.run, hread, ok_bind]
    exact sameAnswer_of_outcome _

/-- Wherever a file is asked for, it has this document in it. -/
def CommandLine.Surroundings.ofDocument (document : Json) : CommandLine.Surroundings :=
  ⟨"/deals", "", fun _ => .file document.render⟩

theorem CommandLine.holds_ofDocument {document : Json} (hproper : document.Proper)
    (hdepth : document.depth ≤ maxDepth) :
    CommandLine.Holds (.ofDocument document) (some "deal.json") document :=
  have hpath : isYamlPath (absolutePath "/deals" "deal.json") = false := by decide +kernel
  holds_render rfl hpath hproper hdepth

def warehousePartnership : WaterfallTerms :=
  ⟨.ofScaled 50000000 2, .ofScaled 10 0, .ofScaled 8 0, .ofScaled 20 0,
    [⟨.ofScaled 12 0, .ofScaled 30 0⟩]⟩

def warehouseOptions : CapitalOptions :=
  ⟨some [⟨.debt, .ofScaled 700000 0, none⟩, ⟨.lpEquity, .ofScaled 550000 0, some "Fund"⟩], none⟩

def warehouseGrid : GridRequest :=
  ⟨.exitCapRate, .rentGrowth, .leveredIrr, some [.ofScaled (-5) 1, .zero, .ofScaled 5 1], none,
    warehouseOptions⟩

open CommandLine in
theorem adapters_agree_stressed_warehouse :
    let deal : DealInput := ⟨stressedWarehouse, warehouseOptions⟩
    let waterfall : WaterfallInput := ⟨warehousePartnership, stressedWarehouse, warehouseOptions⟩
    let grid : GridInput := ⟨stressedWarehouse, warehouseGrid⟩
    SameAnswer SameButOrder (Service.computeWaterfall waterfall.toJson.render)
        ((Command.waterfall ⟨"deal.json", false⟩).run (.ofDocument waterfall.document)) ∧
      SameAnswer Eq (Service.computeProForma deal.toJson.render)
        ((Command.proForma ⟨"deal.json", none⟩).run (.ofDocument deal.document)) ∧
      SameAnswer Eq (Service.computeStress deal.toJson.render)
        ((Command.stress ⟨"deal.json", false⟩).run (.ofDocument deal.document)) ∧
      SameAnswer Eq (Service.computeGrid grid.toJson.render)
        ((Command.sensitivity (.ofRequest "deal.json" grid.request)).run (.ofDocument deal.document)) := by
  intro deal waterfall grid
  have hwaterfall : Service.Holds waterfall.toJson.render waterfall.toJson :=
    Service.holds_render waterfall.means.proper (by decide +kernel)
  have hdeal : Service.Holds deal.toJson.render deal.toJson :=
    Service.holds_render deal.means.proper (by decide +kernel)
  have hgrid : Service.Holds grid.toJson.render grid.toJson :=
    Service.holds_render grid.means.proper (by decide +kernel)
  have hwaterfallFile := holds_ofDocument waterfall.means_document.proper (by decide +kernel)
  have hdealFile : HoldsDeal (.ofDocument deal.document) "deal.json" deal :=
    .inl (holds_ofDocument deal.means_document.proper (by decide +kernel))
  have hrun := (adapters_agree _ _ _).2.1 deal hdeal hdealFile
  exact ⟨(adapters_agree _ _ _).1 waterfall hwaterfall hwaterfallFile, hrun.1, hrun.2,
    (adapters_agree _ _ _).2.2 grid hgrid hdealFile⟩

theorem DealInput.ofJson?_cut (input : DealInput) {depth : Nat}
    (h : maxDepth < input.assumptions.toJson.depth + (depth + 1)) :
    ofJson? (input.toJson.cut depth) = none := by
  refine Option.bind_eq_none_iff.mpr fun fields hfields => ?_
  have hget := Fields.get?_of_cut "assumptions" hfields rfl
  simp [Fields.required_eq_none hget (input.assumptions.ofJson?_cut _ h)]

/-- A text in which the assumptions are nested too deep is refused. -/
theorem Service.serve_nested (input : DealInput) (h : maxDepth ≤ input.assumptions.toJson.depth)
    (run : DealInput → Outcome Json) :
    Service.serve DealInput.ofJson? run input.toJson.render = .error .malformed := by
  have hread : DealInput.ofJson? (input.toJson.cut 0) = none := input.ofJson?_cut (by omega)
  rw [Service.serve, ofText?_render input.means.proper, Option.bind_some, hread]

/-- Scenarios of scenarios, so many levels deep. -/
def nestedStress : Nat → Assumptions
  | 0 => ⟨stressedWarehouse.deal, some ⟨[]⟩⟩
  | levels + 1 =>
    ⟨stressedWarehouse.deal, some ⟨[⟨"held", "Held Longer", .ofScaled 100 0, nestedStress levels⟩]⟩⟩

theorem depth_nestedStress (levels : Nat) : (nestedStress levels).toJson.depth = 4 * levels + 3 := by
  have h (d : Decimal) : d.toJson.depth = 0 := rfl
  induction levels with
  | zero => rfl
  | succ levels ih =>
    rw [nestedStress, Assumptions.toJson, Json.depth, Assumptions.depth_entries]
    simp only [Assumptions.bundleEntry, Assumptions.bundleToJson, Assumptions.scenarioItems,
      Assumptions.scenarioToJson, depthOfEntries, depthOfItems, Json.depth, h, ih]
    omega

open CommandLine in
/-- The document of the functions puts assumptions one level deeper than a document that is given to a
command and holds nothing else. -/
theorem adapters_differ_on_nested_stress :
    let assumptions := nestedStress 31
    let reply := Service.computeProForma (DealInput.toJson ⟨assumptions, .none⟩).render
    let attempt := (Command.proForma ⟨"deal.json", none⟩).run (.ofDocument assumptions.toJson)
    reply = .error .malformed ∧ (∃ report, attempt = .ok report) ∧ ¬ SameAnswer Eq reply attempt := by
  intro assumptions reply attempt
  have hdepth : assumptions.toJson.depth = 127 := depth_nestedStress 31
  have hreply : reply = .error .malformed :=
    Service.serve_nested ⟨assumptions, .none⟩ (Nat.le_of_eq hdepth.symm) _
  refine ⟨hreply, ?_, ?_⟩
  · have hfile : HoldsDeal (.ofDocument assumptions.toJson) "deal.json" ⟨assumptions, .none⟩ :=
      .inr ⟨rfl, holds_ofDocument assumptions.means.proper (Nat.le_of_eq hdepth)⟩
    obtain ⟨form, hfetch, hread⟩ := hfile.readAs_eq
    have hrun : attempt = _ := Command.run_of_fetch hfetch
    have hisOk : (ProForma.analyse (nestedStress 31).plain .none).isOk = true := by decide +kernel
    obtain ⟨analysis, hanalysis⟩ := exists_of_isOk hisOk
    refine ⟨.ofAnalysis ProFormaBasis.toJson ProForma.toJson analysis, ?_⟩
    rw [hrun]
    simp only [Command.runOn, ProFormaArguments.run, hread, ok_bind, ProFormaArguments.override_none]
    show ((ProForma.analyse (nestedStress 31).plain .none).mapError CommandError.failed >>= _) = _
    rw [hanalysis]
    rfl
  · rw [hreply]
    nofun

end PropertyFinance
