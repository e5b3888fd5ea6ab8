import Mathlib
import LiteModel.Proofs.Graph.Blame
import LiteModel.Proofs.Graph.Validity

/-! Verdicts on graphs whose layers begin alike. The rules on the graph as a whole come first and
read no layer; then a layer is judged by what those before it declared. So a graph that is accepted
stays so without its last layers, and the layer that is blamed is the first that is bad: the layers
before it are accepted, and whatever layers follow it are not looked at. -/
namespace LiteModel.Graph

open Sequencing

def withLayers (g : Graph) (layers : List Layer) : Graph := { g with layers := layers }

def cut (g : Graph) (n : Nat) : Graph := g.withLayers (g.layers.take n)

def frameFault? (g : Graph) : Option GraphError :=
  ((g.arena.toList.find? isOversized).map fun v => .oversizedTensor v.name v.tensor.shape).or
    (((g.inputs ++ g.outputs).find? fun id => !g.hasVariable id).map .noSuchEndpoint)

variable {g : Graph} {q : Progress} {layers before : List Layer} {l : Layer} {e : GraphError}
  {layer : String} {fault : LayerFault}

/-- The layers are gone through once the graph has some and nothing is wrong around them. -/
theorem check_withLayers (filled : layers ≠ []) : (g.withLayers layers).check =
    outcome g.frameFault? () >>= fun _ => layers.foldlM g.advance { available := g.inputs } := by
  have some : layers.isEmpty = false := by simpa using filled
  have frame : ∀ id, (g.withLayers layers).hasVariable id = g.hasVariable id := fun _ => rfl
  unfold check frameFault?
  simp only [frame]
  simp only [withLayers, some, Bool.false_eq_true, if_false]
  cases g.arena.toList.find? isOversized with
  | some v => rfl
  | none => cases (g.inputs ++ g.outputs).find? fun id => !g.hasVariable id <;> rfl

theorem check_ok_iff_layers (filled : layers ≠ []) : (g.withLayers layers).check = .ok q ↔
    g.frameFault? = none ∧ layers.foldlM g.advance { available := g.inputs } = .ok q := by
  rw [check_withLayers filled, andThen_ok_iff, outcome_ok_iff]
  simp

theorem check_error_iff_layers (filled : layers ≠ []) : (g.withLayers layers).check = .error e ↔
    g.frameFault? = some e ∨
      g.frameFault? = none ∧ layers.foldlM g.advance { available := g.inputs } = .error e := by
  rw [check_withLayers filled, bind_error_iff, outcome_error_iff]
  simp [outcome_ok_iff]

theorem frameFault?_ne : g.frameFault? ≠ some (.invalidLayer layer fault) := by
  unfold frameFault?
  cases g.arena.toList.find? isOversized <;> simp

theorem refused_cases (h : g.finalize = .error e) :
    (g.layers = [] ∧ e = .noLayers) ∨ g.frameFault? = some e ∨
      ∃ before l after c, g.layers = before ++ l :: after ∧ g.frameFault? = none ∧
        before.foldlM g.advance { available := g.inputs } = .ok c ∧ g.advance c l = .error e := by
  have refused := finalize_error_iff.1 h
  by_cases bare : g.layers = []
  · rw [check, bare, List.isEmpty_nil, if_pos rfl] at refused
    cases refused
    exact .inl ⟨bare, rfl⟩
  · rcases (check_error_iff_layers bare).1 refused with wrong | ⟨fine, gone⟩
    · exact .inr (.inl wrong)
    · obtain ⟨before, l, after, c, order, passed, failed⟩ := foldlM_error_iff.1 gone
      exact .inr (.inr ⟨before, l, after, c, order, fine, passed, failed⟩)

theorem exists_finalize_withLayers (fine : g.frameFault? = none)
    (passed : layers.foldlM g.advance { available := g.inputs } = .ok q) (filled : layers ≠ []) :
    ∃ f, (g.withLayers layers).finalize = .ok f :=
  finalize_ok_iff.2 ⟨q, (check_ok_iff_layers filled).2 ⟨fine, passed⟩⟩

theorem exists_finalize_cut {f : FinalizedGraph} (h : g.finalize = .ok f) {n : Nat} (some : 0 < n) :
    ∃ f', (g.cut n).finalize = .ok f' := by
  obtain ⟨q, passed⟩ := finalize_ok_iff.1 ⟨f, h⟩
  have filled : g.layers ≠ [] := (accepted_of_check passed).nonempty
  obtain ⟨fine, gone⟩ := (check_ok_iff_layers filled).1 passed
  rw [← List.take_append_drop n g.layers, List.foldlM_append, bind_ok_iff] at gone
  obtain ⟨c, front, -⟩ := gone
  refine exists_finalize_withLayers fine front ?_
  simpa [List.take_eq_nil_iff, filled] using Nat.pos_iff_ne_zero.1 some

theorem finalize_blame {c : Progress} (fine : g.frameFault? = none)
    (passed : before.foldlM g.advance { available := g.inputs } = .ok c)
    (failed : g.advance c l = .error e) (after : List Layer) :
    (g.withLayers (before ++ l :: after)).finalize = .error e := by
  have filled : before ++ l :: after ≠ [] := by simp
  refine finalize_error_iff.2 ((check_error_iff_layers filled).2 (.inr ⟨fine, ?_⟩))
  exact foldlM_error_iff.2 ⟨before, l, after, c, rfl, passed, failed⟩

theorem finalize_frame (wrong : g.frameFault? = some e) (filled : layers ≠ []) :
    (g.withLayers layers).finalize = .error e :=
  finalize_error_iff.2 ((check_error_iff_layers filled).2 (.inl wrong))

/-- The verdict on a graph is that on its layers up to the first bad one. A graph that is accepted
is accepted with its first layers alone, as many as there are to be. A layer that is blamed stands
at a position such that the layers before it are accepted, and those up to it are refused for the
same reason, with whatever layers after them. And what is not said of a layer is said of the graph
with any layers at all, or it has none. -/
theorem finalize_cut (g : Graph) :
    (∀ f, g.finalize = .ok f → ∀ n, 0 < n → ∃ f', (g.cut n).finalize = .ok f') ∧
    (∀ layer fault, g.finalize = .error (.invalidLayer layer fault) →
      ∃ k l, g.layers[k]? = some l ∧ l.name = layer ∧
        (k = 0 ∨ ∃ f, (g.cut k).finalize = .ok f) ∧
        (g.cut (k + 1)).finalize = .error (.invalidLayer layer fault) ∧
        ∀ rest, (g.withLayers (g.layers.take (k + 1) ++ rest)).finalize =
          .error (.invalidLayer layer fault)) ∧
    (∀ e, g.finalize = .error e → (∀ layer fault, e ≠ .invalidLayer layer fault) →
      g.layers = [] ∨ ∀ layers ≠ [], (g.withLayers layers).finalize = .error e) := by
  refine ⟨fun f accepted n some => exists_finalize_cut accepted some, fun layer fault refused => ?_,
    fun e refused whole => ?_⟩
  · rcases refused_cases refused with
      ⟨-, ⟨⟩⟩ | wrong | ⟨before, l, after, c, order, fine, passed, failed⟩
    · exact absurd wrong frameFault?_ne
    · obtain ⟨_, -, same⟩ := breaks_of_advance_error failed
      have front : g.layers.take before.length = before := by rw [order, List.take_left]
      have upTo : g.layers.take (before.length + 1) = before ++ [l] := by
        rw [order, List.take_length_add_append]
        rfl
      refine ⟨before.length, l, by simp [order], (GraphError.invalidLayer.inj same).1.symm, ?_, ?_,
        fun rest => ?_⟩
      · by_cases first : before = []
        · exact .inl (by rw [first, List.length_nil])
        · rw [cut, front]
          exact .inr (exists_finalize_withLayers fine passed first)
      · rw [cut, upTo]
        exact finalize_blame fine passed failed []
      · rw [upTo, List.append_assoc]
        exact finalize_blame fine passed failed rest
  · rcases refused_cases refused with ⟨bare, -⟩ | wrong | ⟨_, _, _, _, _, _, _, failed⟩
    · exact .inl bare
    · exact .inr fun layers filled => finalize_frame wrong filled
    · obtain ⟨fault, -, same⟩ := breaks_of_advance_error failed
      exact absurd same (whole _ fault)

def hasty : Graph where
  name := "hasty"
  arena := #[⟨"x", .placeholder (.vector 1) .f32⟩, ⟨"h", .placeholder (.vector 1) .f32⟩,
    ⟨"y", .placeholder (.vector 1) .f32⟩, ⟨"z", .placeholder (.vector 1) .f32⟩]
  layers := [⟨"first", "relu", [⟨0⟩], [⟨1⟩], [], .empty⟩, ⟨"third", "relu", [⟨2⟩], [⟨3⟩], [], .empty⟩,
    ⟨"second", "relu", [⟨1⟩], [⟨2⟩], [], .empty⟩]
  inputs := [⟨0⟩]
  outputs := [⟨3⟩]

theorem finalize_cut_hasty :
    hasty.finalize = .error (.invalidLayer "third" (.inputNotProduced "y")) ∧
    ∃ k l, hasty.layers[k]? = some l ∧ l.name = "third" ∧
      (k = 0 ∨ ∃ f, (hasty.cut k).finalize = .ok f) ∧
      (hasty.cut (k + 1)).finalize = .error (.invalidLayer "third" (.inputNotProduced "y")) ∧
      ∀ rest, (hasty.withLayers (hasty.layers.take (k + 1) ++ rest)).finalize =
        .error (.invalidLayer "third" (.inputNotProduced "y")) := by
  have refused : hasty.finalize = .error (.invalidLayer "third" (.inputNotProduced "y")) :=
    finalize_error_iff.2 (by cbv)
  exact ⟨refused, (finalize_cut hasty).2.1 _ _ refused⟩

end LiteModel.Graph
