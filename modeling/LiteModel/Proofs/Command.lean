import LiteModel.Command
import LiteModel.Proofs.Export.Success
import LiteModel.Proofs.Files.Replacement
import LiteModel.Proofs.ModelDirectory

/-! The export command as a whole: it does all of its work or none. The stages come one after
another, the first that fails ends the command, and only the last one writes, and that all at once.
What it then leaves is a container that can be inspected, but for the permission bits: a file that
is replaced hands its bits on, and nobody reads what its owner may not. -/
namespace LiteModel

open Sequencing Files

namespace Command

def baseConfig (read : Reader) : Option String → Except ConfigError ExportConfig
  | some path => ExportConfig.ofFile read path
  | none => .ok {}

variable (t : Tree) (config : Option String) (model output : String) (description : Option String)

/-- The configuration is read, the model is loaded, the container is made with the description that
was asked for, if any was, and with it written the tree is `after`. -/
def Exports (e : Export) (after : Tree) : Prop :=
  ∃ base g, baseConfig t.read config = .ok base ∧ ModelDirectory.load t.read model = .ok g ∧
    g.toContainer { base with description := description.getD base.description } = .ok e ∧
    t.replaceFile output e.bytes = (after, .ok ())

/-- What the first stage that fails is reported as. The container and its writing are one. -/
inductive Fails : Failure → Prop where
  | config {path : String} {e : ConfigError} : config = some path →
    ExportConfig.ofFile t.read path = .error e →
    Fails ⟨"failed to load config '" ++ path ++ "'", e.message⟩
  | model {base : ExportConfig} {e : LoadError} : baseConfig t.read config = .ok base →
    ModelDirectory.load t.read model = .error e →
    Fails ⟨"failed to load model from '" ++ model ++ "'", e.message⟩
  | container {base : ExportConfig} {g : FinalizedGraph} {e : ExportError} :
    baseConfig t.read config = .ok base → ModelDirectory.load t.read model = .ok g →
    g.toContainer { base with description := description.getD base.description } = .error e →
    Fails ⟨"failed to export '" ++ g.graph.name ++ "'", e.message⟩
  | writing {base : ExportConfig} {g : FinalizedGraph} {e : Export} {after : Tree}
    {fault : FileFault} :
    baseConfig t.read config = .ok base → ModelDirectory.load t.read model = .ok g →
    g.toContainer { base with description := description.getD base.description } = .ok e →
    t.replaceFile output e.bytes = (after, .error fault) →
    Fails ⟨"failed to export '" ++ g.graph.name ++ "'",
      (ContainerFileError.inaccessible output fault).message⟩

variable {t config model output description}

theorem configFor_eq (read : Reader) : configFor read config description =
    (baseConfig read config).map fun base =>
      { base with description := description.getD base.description } := by
  unfold configFor baseConfig
  cases config with
  | none => cases description <;> rfl
  | some path => cases ExportConfig.ofFile read path <;> cases description <;> rfl

/-- Either all stages work out or one is the first to fail. -/
theorem exports_or_fails (t : Tree) (config : Option String) (model output : String)
    (description : Option String) :
    (∃ e after, Exports t config model output description e after) ∨
      ∃ f, Fails t config model output description f := by
  cases read : baseConfig t.read config with
  | error e =>
    cases config with
    | none => cases read
    | some path => exact .inr ⟨_, .config rfl read⟩
  | ok base =>
  cases loaded : ModelDirectory.load t.read model with
  | error e => exact .inr ⟨_, .model read loaded⟩
  | ok g =>
  cases made : g.toContainer { base with description := description.getD base.description } with
  | error e => exact .inr ⟨_, .container read loaded made⟩
  | ok e =>
  cases written : t.replaceFile output e.bytes with
  | mk after ending =>
    cases ending with
    | error fault => exact .inr ⟨_, .writing read loaded made written⟩
    | ok => exact .inl ⟨e, after, base, g, read, loaded, made, written⟩

theorem execute_of_exports {e : Export} {after : Tree}
    (h : Exports t config model output description e after) : ∃ printed,
      (CommandLine.run (.exportModel config model output description)).execute t =
        (after, ⟨0, printed, ""⟩) := by
  obtain ⟨base, g, read, loaded, made, written⟩ := h
  simp only [CommandLine.execute, report, exportReport, configFor_eq, read, Except.map, loaded,
    made, Report.carryOut, written]
  exact ⟨_, rfl⟩

theorem execute_of_fails {f : Failure} (h : Fails t config model output description f) :
    ∃ printed, (CommandLine.run (.exportModel config model output description)).execute t =
      (t, ⟨1, printed, f.render⟩) := by
  cases h with
  | config given refused =>
    simp only [CommandLine.execute, report, exportReport, configFor_eq, baseConfig, given, refused,
      Except.map, Report.carryOut, failed, Option.getD_some]
    exact ⟨_, rfl⟩
  | model read refused =>
    simp only [CommandLine.execute, report, exportReport, configFor_eq, read, Except.map, refused,
      Report.carryOut, failed]
    exact ⟨_, rfl⟩
  | container read loaded refused =>
    simp only [CommandLine.execute, report, exportReport, configFor_eq, read, Except.map, loaded,
      refused, Report.carryOut, failed]
    exact ⟨_, rfl⟩
  | writing read loaded made refused =>
    obtain rfl := Tree.replaceFile_error refused
    simp only [CommandLine.execute, report, exportReport, configFor_eq, read, Except.map, loaded,
      made, Report.carryOut, refused, Writing.failure]
    exact ⟨_, rfl⟩

theorem execute_inspect {after : Tree} {l : Location} {bytes : List UInt8} {mode : Nat}
    (located : after.locate output = .ok l) (found : after.find? l = some (.file bytes mode))
    (verified : Container.verify bytes = .ok ()) :
    ((CommandLine.run (.inspect output)).execute after).2.exitCode =
      if Mode.has mode Right.read.bit then 0 else 1 := by
  obtain ⟨s, summary⟩ := Container.Summary.exists_of_verify verified
  have entry : after.entry output = .ok (.file bytes mode) := by
    simp [Tree.entry, located, found, bind, Except.bind]
  cases readable : Mode.has mode Right.read.bit with
  | true =>
    have read : after.read output = .ok bytes := by
      simp [Tree.read, entry, Mode.demand, Entry.mode, readable, bind, Except.bind, pure, Except.pure]
    simp [CommandLine.execute, report, inspectReport, ContainerFile.summary, ContainerFile.read,
      read, summary, Except.mapError, bind, Except.bind, Report.carryOut]
  | false =>
    have denied : after.read output = .error .denied := by
      simp [Tree.read, entry, Mode.demand, Entry.mode, readable, bind, Except.bind]
    simp [CommandLine.execute, report, inspectReport, ContainerFile.summary, ContainerFile.read,
      denied, Except.mapError, bind, Except.bind, Report.carryOut, failed]

theorem verify_of_toContainer {g : FinalizedGraph} {c : ExportConfig} {e : Export}
    (made : g.toContainer c = .ok e) : Container.verify e.bytes = .ok () := by
  obtain ⟨operations, -, -, verified, exported⟩ := FinalizedGraph.toContainer_ok_iff.1 made
  have bytes : e.bytes = (g.image c operations).encode := by
    rw [← exported, FinalizedGraph.report]
  rw [bytes, verified]

/-- The export command does the whole job or nothing. It succeeds when every stage does, and then
only the output changed: it holds the container, with the permission bits of the file that was there
or of a new one, and can be inspected unless that file was kept from being read. Otherwise the tree
is as it was and the first stage that failed is reported. -/
theorem export_wholly_or_not (t : Tree) (config : Option String) (model output : String)
    (description : Option String) : ∃ after outcome,
      (CommandLine.run (.exportModel config model output description)).execute t =
        (after, outcome) ∧
      (outcome.exitCode = 0 ↔
        ∃ e written, Exports t config model output description e written) ∧
      (outcome.exitCode = 0 → ∃ e l, Exports t config model output description e after ∧
        after.locate output = .ok l ∧ after.find? l = some (.file e.bytes (t.modeAt l)) ∧
        (∀ k, k ≠ l → after.find? k = t.find? k) ∧
        (((CommandLine.run (.inspect output)).execute after).2.exitCode = 0 ↔
          ∀ old, t.find? l = some old → Mode.has old.mode Right.read.bit = true)) ∧
      (outcome.exitCode ≠ 0 → outcome.exitCode = 1 ∧ after = t ∧
        ∃ f, Fails t config model output description f ∧ outcome.complaint = f.render) := by
  rcases exports_or_fails t config model output description with ⟨e, after, exports⟩ | ⟨f, fails⟩
  · obtain ⟨printed, executed⟩ := execute_of_exports exports
    refine ⟨after, _, executed, ⟨fun _ => ⟨e, after, exports⟩, fun _ => rfl⟩, fun _ => ?_,
      fun nonzero => absurd rfl nonzero⟩
    have stages := exports
    obtain ⟨base, g, -, -, made, written⟩ := stages
    obtain ⟨l, -, arrives, -, rfl⟩ := Tree.replaceFile_ok written
    refine ⟨e, l, exports, arrives, Tree.find?_insert_self, fun k other => ?_, ?_⟩
    · rw [Tree.find?_insert, if_neg other]
    · rw [execute_inspect arrives Tree.find?_insert_self (verify_of_toContainer made), Tree.modeAt]
      cases t.find? l with
      | none => simp [Mode.newFile, Mode.has, Right.bit]
      | some old => simp
  · obtain ⟨printed, executed⟩ := execute_of_fails fails
    have nonzero : (1 : UInt32) ≠ 0 := by decide
    refine ⟨t, _, executed, ⟨fun zero => absurd zero nonzero, fun worked => ?_⟩,
      fun zero => absurd zero nonzero, fun _ => ⟨rfl, rfl, f, fails, rfl⟩⟩
    obtain ⟨e, after, exports⟩ := worked
    obtain ⟨_, done⟩ := execute_of_exports exports
    exact congrArg (fun ended => ended.2.exitCode) (executed.symm.trans done)

def bareManifest : Manifest where
  name := "m"
  tensors := []
  layers := [⟨"a", "relu", [], [], [], .empty⟩]

def bareText : String :=
  "\x7b\"name\":\"m\",\"tensors\":[],\"layers\":[\x7b\"name\":\"a\",\"layer_type\":\"relu\"\x7d]\x7d"

def bare : FinalizedGraph where
  graph := { name := "m", layers := [⟨"a", "relu", [], [], [], .empty⟩] }
  accepted := ⟨_, by cbv⟩

def bareOperations : List Operation := [⟨"a", .relu, [], [], [], none⟩]

set_option maxRecDepth 4000 in
theorem bare_exported : ∃ e, bare.toContainer {} = .ok e := by
  have lowered : bare.lower = .ok bareOperations := by cbv
  have tables : (bare.image {} bareOperations).tableCount = 5 := by cbv
  have size : (bare.image {} bareOperations).footprint.size = 297 := by cbv
  have limits : bare.WithinLimits {} bareOperations := .of_counts tables size (by decide)
  exact limits.exists_export lowered (by decide) (by cbv)

def guarded : Tree := ⟨"/srv/", [([], .directory 0o755), (["m"], .directory 0o755),
  (["m", "model.json"], .file bareText.toByteArray.data.toList 0o644),
  (["out.tflite"], .file [] 0o200)]⟩

theorem guarded_read :
    guarded.read "m/model.json" = .ok bareText.toByteArray.data.toList := by
  have fine : Path.check "m/model.json" = .ok () := by decide
  have names : Path.names "m/model.json" = ["m", "model.json"] := by decide
  have first : Path.checkName "m" = .ok () := by decide
  have second : Path.checkName "model.json" = .ok () := by decide
  simp [Tree.read, Tree.entry, Tree.locate, Tree.walk, Tree.enter, Tree.find?, List.lookup, fine,
    names, first, second, guarded, Mode.demand, Mode.has, Right.bit, Entry.mode, Path.isStill, bind,
    Except.bind, pure, Except.pure]

set_option maxRecDepth 4000 in
theorem guarded_load : ModelDirectory.load guarded.read "m" = .ok bare := by
  have path : ModelDirectory.manifestPath "m" = "m/model.json" := by decide
  have text : Manifest.ofJson bareText = .ok bareManifest := by cbv
  have parsed : Manifest.ofFile guarded.read (ModelDirectory.manifestPath "m") =
      .ok bareManifest := by
    rw [path]
    exact Manifest.ofFile_ok_iff.2 ⟨_, Reader.text_of_string guarded_read, text⟩
  have valid : bareManifest.validate = .ok () := by cbv
  have built : bareManifest.toGraph {} = .ok bare := by cbv
  rw [ModelDirectory.load_eq parsed, valid]
  exact mapError_ok_iff.2 built

theorem guarded_root : guarded.find? [] = some (.directory 0o755) := rfl

theorem guarded_enter : guarded.enter [] "." = .ok [] :=
  Tree.enter_ok_iff.2 ⟨_, guarded_root, .inr (by decide), by decide, by decide⟩

theorem guarded_target : Replacement.target guarded "out.tflite" = .ok ["out.tflite"] := by
  have names : Path.names "out.tflite" = ["out.tflite"] := by decide
  have fine : Path.check "out.tflite" = .ok () := by decide
  have short : Path.checkName "out.tflite" = .ok () := by decide
  simp [Replacement.target, Tree.walk, fine, names, short, guarded_enter, bind, Except.bind, pure,
    Except.pure]

theorem guarded_plan (bytes : List UInt8) : ∃ name,
    Replacement.plan guarded "out.tflite" bytes = .ok ⟨"out.tflite", bytes, [] ++ [name]⟩ := by
  have parents : Path.parentNames "out.tflite" = [] := by decide
  have whole : Path.checkWhole guarded.origin
      (if (Path.parent "out.tflite").isEmpty then "." else Path.parent "out.tflite")
      Replacement.temporaryForm = .ok () := by decide
  refine ⟨Replacement.freshName (guarded.namesIn [] ++ Path.names "out.tflite"), ?_⟩
  simp only [Replacement.plan, Tree.walk, parents, whole, List.foldlM_nil, guarded_enter, bind,
    Except.bind, pure, Except.pure]

theorem guarded_replaced (bytes : List UInt8) :
    ∃ after, guarded.replaceFile "out.tflite" bytes = (after, .ok ()) := by
  obtain ⟨name, planned⟩ := guarded_plan bytes
  have created : guarded.create ([] ++ [name]) (fun _ => .file [] Replacement.temporaryMode) =
      .ok (guarded.insert ([] ++ [name]) (.file [] Replacement.temporaryMode)) := by
    rw [Tree.create, List.dropLast_concat, guarded_root]
    rfl
  exact Tree.exists_replaceFile planned created guarded_target
    (by simp [guarded, Tree.find?, List.lookup])

/-- The export works out, but what it leaves cannot be inspected: the file that is replaced was not
to be read, and its permission bits are kept. -/
theorem export_guarded : ∃ after outcome,
    (CommandLine.run (.exportModel none "m" "out.tflite" none)).execute guarded =
      (after, outcome) ∧ outcome.exitCode = 0 ∧
    ((CommandLine.run (.inspect "out.tflite")).execute after).2.exitCode = 1 := by
  obtain ⟨e, made⟩ := bare_exported
  obtain ⟨after, written⟩ := guarded_replaced e.bytes
  have exports : Exports guarded none "m" "out.tflite" none e after :=
    ⟨{}, bare, rfl, guarded_load, made, written⟩
  obtain ⟨printed, executed⟩ := execute_of_exports exports
  refine ⟨after, _, executed, rfl, ?_⟩
  obtain ⟨l, located, arrives, -, rfl⟩ := Tree.replaceFile_ok written
  cases located.symm.trans (Replacement.target_ok guarded_target).1
  have unreadable : Mode.has (guarded.modeAt ["out.tflite"]) Right.read.bit = false := by decide
  rw [execute_inspect arrives Tree.find?_insert_self (verify_of_toContainer made), unreadable]
  rfl

end Command

end LiteModel
