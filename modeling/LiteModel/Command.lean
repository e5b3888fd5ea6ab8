import LiteModel.CommandLine
import LiteModel.ContainerFile
import LiteModel.Export.ConfigFile
import LiteModel.ModelDirectory

/-! What the commands do. A command reads files, prints, and in the end may have one file to write;
its report says all of that, so that a command is a function of the files it reads. -/
namespace LiteModel

structure Failure where
  context : String
  cause : String
deriving DecidableEq, Repr

def Failure.render (f : Failure) : String :=
  "Error: " ++ f.context ++ "\n\nCaused by:\n    " ++ f.cause ++ "\n"

/-- A file that is left to be written, with what to print and what to say if it cannot be. -/
structure Writing where
  path : String
  bytes : List UInt8
  printed : String
  context : String
deriving Repr

namespace Writing

def failure (w : Writing) (fault : FileFault) : Failure :=
  ⟨w.context, (ContainerFileError.inaccessible w.path fault).message⟩

end Writing

inductive Report.Ending where
  | done
  | failed (failure : Failure)
  | writing (w : Writing)
deriving Repr

structure Report where
  printed : String
  ending : Report.Ending
deriving Repr

namespace Command

def versionText : String := "edge-export 0.1.0\n"

def banner (title : String) : String :=
  let rule := String.ofList (List.replicate 54 '═')
  "╔" ++ rule ++ "╗\n║" ++ title ++ "║\n╚" ++ rule ++ "╝\n\n"

def exportBanner : String := banner "           edge-export · TFLite Exporter              "

def inspectBanner : String := banner "          edge-export · Container Inspector           "

def configFor (read : Files.Reader) (config description : Option String) :
    Except ConfigError ExportConfig := do
  let c ← match config with
    | some path => ExportConfig.ofFile read path
    | none => .ok {}
  return match description with
    | some d => c.withDescription d
    | none => c

def settingsText (model output description : String) : String :=
  "  Config:\n   Model:       " ++ model ++ "\n   Output:      " ++ output ++
    "\n   Description: \"" ++ description ++ "\"\n\n"

def failed (printed context cause : String) : Report := ⟨printed, .failed ⟨context, cause⟩⟩

def exportReport (read : Files.Reader) (config : Option String) (model output : String)
    (description : Option String) : Report :=
  match configFor read config description with
  | .error e =>
    failed exportBanner ("failed to load config '" ++ config.getD "" ++ "'") e.message
  | .ok c =>
    let printed := exportBanner ++ settingsText model output c.description ++
      "  [1/2] Loading model...\n"
    match ModelDirectory.load read model with
    | .error e => failed printed ("failed to load model from '" ++ model ++ "'") e.message
    | .ok g =>
      let printed := printed ++ "        " ++ g.graph.summary ++ "\n\n  [2/2] Exporting...\n"
      let context := "failed to export '" ++ g.graph.name ++ "'"
      match g.toContainer c with
      | .error e => failed printed context e.message
      | .ok e =>
        ⟨printed, .writing ⟨output, e.bytes,
          "        " ++ e.summary ++ "\n\n  Wrote " ++ output ++ "\n", context⟩⟩

def codeLine (i : Nat) (code : Int32) : String :=
  let name := ((OperatorKind.ofCode? code).map (·.name)).getD "unknown"
  "    [" ++ Text.alignRight 3 i.repr ++ "] " ++ Text.alignRight 4 code.toInt.repr ++ " " ++
    name ++ "\n"

def inspectReport (read : Files.Reader) (file : String) : Report :=
  match ContainerFile.summary read file with
  | .error e => failed inspectBanner ("failed to inspect '" ++ file ++ "'") e.message
  | .ok s =>
    ⟨inspectBanner ++ "  File: " ++ file ++ "\n" ++ s.render ++ "  operator codes:\n" ++
      Container.Summary.numbered codeLine s.operatorCodes ++ "\n", .done⟩

def report (read : Files.Reader) : Command → Report
  | .exportModel config model output description =>
    exportReport read config model output description
  | .inspect file => inspectReport read file

end Command

structure Outcome where
  exitCode : UInt32
  printed : String
  complaint : String := ""
deriving DecidableEq, Repr

namespace Report

def carryOut (r : Report) (t : Files.Tree) : Files.Tree × Outcome :=
  match r.ending with
  | .done => (t, ⟨0, r.printed, ""⟩)
  | .failed f => (t, ⟨1, r.printed, f.render⟩)
  | .writing w =>
    match t.replaceFile w.path w.bytes with
    | (t, .ok _) => (t, ⟨0, r.printed ++ w.printed, ""⟩)
    | (t, .error fault) => (t, ⟨1, r.printed, (w.failure fault).render⟩)

end Report

namespace CommandLine

def usageText : String :=
  "Usage: edge-export [-c <FILE>] [-v]... <COMMAND>\n\n" ++
    "  export  -m <DIRECTORY> -o <FILE> [-d <TEXT>]\n  inspect -f <FILE>\n"

def execute (t : Files.Tree) : CommandLine → Files.Tree × Outcome
  | .run command => (command.report t.read).carryOut t
  | .version => (t, ⟨0, Command.versionText, ""⟩)
  | .help => (t, ⟨0, usageText, ""⟩)
  | .refused => (t, ⟨2, "", usageText⟩)

end CommandLine

end LiteModel
