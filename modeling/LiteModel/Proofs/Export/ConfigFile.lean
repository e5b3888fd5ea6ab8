import LiteModel.Export.ConfigFile
import LiteModel.Proofs.Toml.Document

/-! Export configurations come back from the text that they are written as. The text is one line a
setting, and whatever a text setting holds, its line is read back. -/
namespace LiteModel.ExportConfig
open Toml

def lines (c : ExportConfig) : List Line :=
  ⟨"description", Quoting.string c.description.toList, .text c.description⟩ ::
    (c.subgraphName.toList.map fun name =>
      ⟨"subgraph_name", Quoting.string name.toList, .text name⟩) ++
    [⟨"tensor_names", if c.tensorNames then "true".toList else "false".toList,
      .bool c.tensorNames⟩]

theorem print_eq (c : ExportConfig) : c.print = c.lines.flatMap Line.write := by
  rcases c with ⟨description, _ | name, tensorNames⟩ <;>
    simp only [print, lines, line, Line.write, Option.toList, List.map_cons, List.map_nil,
      List.cons_append, List.nil_append, List.flatMap_cons, List.flatMap_nil, List.append_nil,
      List.append_assoc]

theorem readable_lines (c : ExportConfig) : ∀ l ∈ c.lines, l.Readable := by
  intro l member
  simp only [lines, List.mem_append, List.mem_cons, List.mem_map, List.not_mem_nil,
    or_false] at member
  rcases member with (rfl | ⟨name, -, rfl⟩) | rfl
  · exact Line.readable_text (by decide) _
  · exact Line.readable_text (by decide) _
  · exact Line.readable_bool (by decide) _

theorem keys_lines (c : ExportConfig) : (c.lines.map (·.key)).Nodup := by
  rcases c with ⟨description, _ | name, tensorNames⟩
  · change ["description", "tensor_names"].Nodup
    decide
  · change ["description", "subgraph_name", "tensor_names"].Nodup
    decide

theorem ofEntries?_lines (c : ExportConfig) : ofEntries? (c.lines.map Line.entry) = some c := by
  rcases c with ⟨description, _ | name, tensorNames⟩ <;> rfl

/-- A configuration that is written is read back, whatever its texts hold. A subgraph name that is
not set stays so, and one that is empty stays set. -/
theorem ofToml?_toToml (c : ExportConfig) : ofToml? c.toToml = some c := by
  have read := Document.parse?_lines c.readable_lines c.keys_lines
  rw [ofToml?, toToml, String.toList_ofList, print_eq, read]
  exact c.ofEntries?_lines

example : toToml ⟨"it's \"so\"", some "", false⟩ =
    "description = \"\"\"it's \"so\"\"\"\"\nsubgraph_name = \"\"\ntensor_names = false\n" := by
  decide

end LiteModel.ExportConfig
