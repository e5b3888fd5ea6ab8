import LiteModel.Container.Verification
import LiteModel.Proofs.Container.Kinds

/-! Reading back what was written. Each kind of table fits wherever it is written, from those that
lead nowhere up to the model, so a container gives its content back and is walked through at a price
known from the content. Options that a container has no table for are not kept. -/
namespace LiteModel.Container

/-- A zero of either sign is not written and reads as a positive one. -/
def Options.storedBeta (bits : UInt32) : UInt32 := if bits &&& 0x7fffffff = 0 then 0 else bits

def Options.stored : Options → Options
  | fullyConnected activation => fullyConnected activation
  | softmax beta => softmax (storedBeta beta)
  | other _ => other 0

def OperatorEntry.stored (o : OperatorEntry) : OperatorEntry :=
  { o with options := o.options.stored }

def Subgraph.stored (s : Subgraph) : Subgraph :=
  { s with operators := s.operators.map fun os => os.map OperatorEntry.stored }

def Model.stored (m : Model) : Model :=
  { m with subgraphs := m.subgraphs.map fun ss => ss.map Subgraph.stored }

namespace Write

variable {b : Builder}

theorem From.tableOf {values : List (Option FieldValue)} {Q : File → Nat → Prop}
    (few : values.length ≤ 5) (fits : ∀ o ∈ values, ∀ v, o = some v → v.Fits b.size)
    (sound : b.Sound)
    (enough : ∀ b' : Builder, b.bytes <:+ b'.bytes → ∀ front,
      File.Finished (front ++ b'.bytes).toArray → ∀ p,
        File.HasTable (front ++ b'.bytes).toArray values p → Q (front ++ b'.bytes).toArray p) :
    From b (Write.table (present 0 values)) fun place b' => Stands b'.bytes place Q :=
  (From.table few fits sound).mono fun _ b' grown stands =>
    stands.mono fun front finished _ => enough b' grown front finished _

theorem buffer_makes (e : Buffer) : (Write.buffer e).Makes (Form.buffer.Fits e) := by
  intro b sound
  refine (From.option (fun a _ => Form.bytes_makes a) sound).bind fun data b₁ sound₁ _ hdata => ?_
  have fields : referred Slot.Buffer.data data = present 0 [data.map .reference] := by
    simp [present, Slot.Buffer.data, referred_eq]
  rw [fields]
  refine .tableOf (by simp) ?_ sound₁ fun b₂ grown front finished p table => ?_
  · simp only [List.forall_mem_cons]
    exact ⟨hdata.fits, List.forall_mem_nil _⟩
  · exact Form.buffer_fits table (hdata.found grown finished)

theorem operatorCode_makes (c : OperatorCode) :
    (Write.operatorCode c).Makes (Form.operatorCode.Fits c) := by
  intro b sound
  have fields : number8 Slot.OperatorCode.deprecatedCode c.deprecatedCode.toUInt8 0 ++
      number32 Slot.OperatorCode.version c.version.toUInt32 1 ++
      number32 Slot.OperatorCode.builtinCode c.builtinCode.toUInt32 0 =
      present 0 [numberValue 1 c.deprecatedCode.toUInt8.toNat 0, none,
        numberValue 4 c.version.toUInt32.toNat 1, numberValue 4 c.builtinCode.toUInt32.toNat 0] := by
    simp [present, Slot.OperatorCode.deprecatedCode, Slot.OperatorCode.version,
      Slot.OperatorCode.builtinCode, number8_eq, number32_eq]
  unfold Write.operatorCode
  rw [fields]
  refine .tableOf (by simp) ?_ sound fun b₁ grown front finished p table => ?_
  · simp only [List.forall_mem_cons]
    exact ⟨numberValue_fits _ (.inl rfl) (UInt8.toNat_lt _), by simp,
      numberValue_fits _ (.inr rfl) (UInt32.toNat_lt _),
      numberValue_fits _ (.inr rfl) (UInt32.toNat_lt _), List.forall_mem_nil _⟩
  · exact Form.operatorCode_fits table

theorem tensor_makes (e : TensorEntry) : (Write.tensor e).Makes (Form.tensor.Fits e) := by
  intro b sound
  refine (From.option (fun a _ => Form.integers_makes a) sound).bind
    fun shape b₁ sound₁ _ hshape => ?_
  refine (From.option (fun a _ => Form.text_makes a) sound₁).bind
    fun name b₂ sound₂ grown₂ hname => ?_
  have hshape := hshape.extend grown₂
  have fields : referred Slot.Tensor.shape shape ++
      number8 Slot.Tensor.typeCode e.typeCode.toUInt8 0 ++
      number32 Slot.Tensor.buffer e.buffer 0 ++ referred Slot.Tensor.name name =
      present 0 [shape.map .reference, numberValue 1 e.typeCode.toUInt8.toNat 0,
        numberValue 4 e.buffer.toNat 0, name.map .reference] := by
    simp [present, Slot.Tensor.shape, Slot.Tensor.typeCode, Slot.Tensor.buffer, Slot.Tensor.name,
      referred_eq, number8_eq, number32_eq]
  rw [fields]
  refine .tableOf (by simp) ?_ sound₂ fun b₃ grown front finished p table => ?_
  · simp only [List.forall_mem_cons]
    exact ⟨hshape.fits, numberValue_fits _ (.inl rfl) (UInt8.toNat_lt _),
      numberValue_fits _ (.inr rfl) (UInt32.toNat_lt _), hname.fits, List.forall_mem_nil _⟩
  · exact Form.tensor_fits table (hshape.found grown finished) (hname.found grown finished)

theorem activation_makes (a : Int8) :
    (table (number8 Slot.FullyConnected.activation a.toUInt8 0)).Makes
      (Form.activation.Fits a) := by
  intro b sound
  have fields : number8 Slot.FullyConnected.activation a.toUInt8 0 =
      present 0 [numberValue 1 a.toUInt8.toNat 0, none, none] := by
    simp [present, Slot.FullyConnected.activation, number8_eq]
  rw [fields]
  refine .tableOf (by simp) ?_ sound fun b₁ _ front _ p table => Form.activation_fits table
  simp only [List.forall_mem_cons]
  exact ⟨numberValue_fits _ (.inl rfl) (UInt8.toNat_lt _), by simp, by simp, List.forall_mem_nil _⟩

theorem float32_eq (n : Nat) (bits : UInt32) : float32 (Slot.ofField n) bits =
    ((numberValue 4 (Options.storedBeta bits).toNat 0).map (⟨Slot.ofField n, ·⟩)).toList := by
  unfold float32 Options.storedBeta numberValue
  by_cases zero : bits &&& 0x7fffffff = 0
  · rw [if_pos zero, if_pos zero]
    rfl
  · have some : bits.toNat ≠ 0 := by
      intro h
      have none : bits = 0 := UInt32.toNat_inj.1 h
      rw [none] at zero
      exact zero (by decide)
    rw [if_neg zero, if_neg zero, if_neg some]
    rfl

theorem beta_makes (bits : UInt32) :
    (table (float32 Slot.Softmax.beta bits)).Makes (Form.beta.Fits (Options.storedBeta bits)) := by
  intro b sound
  have fields : float32 Slot.Softmax.beta bits =
      present 0 [numberValue 4 (Options.storedBeta bits).toNat 0] := by
    simp [present, Slot.Softmax.beta, float32_eq]
  rw [fields]
  refine .tableOf (by simp) ?_ sound fun b₁ _ front _ p table => Form.beta_fits table
  simp only [List.forall_mem_cons]
  exact ⟨numberValue_fits _ (.inr rfl) (UInt32.toNat_lt _), List.forall_mem_nil _⟩

def OptionsStand (b : Builder) : Options → Option Nat → Prop
  | .fullyConnected a, place => Standing b Form.activation.Fits (some a) place
  | .softmax bits, place => Standing b Form.beta.Fits (some bits) place
  | .other tag, place => tag = 0 ∧ place = none

theorem From.options {o : Options} (sound : b.Sound) :
    From b (options o) fun place b' => OptionsStand b' o.stored place := by
  cases o with
  | fullyConnected a =>
    rw [Write.options, map_eq_pure_bind]
    exact (activation_makes a b sound).bind fun _ b' sound' _ stands => .pure sound' (.some stands)
  | softmax bits =>
    rw [Write.options, map_eq_pure_bind]
    exact (beta_makes bits b sound).bind fun _ b' sound' _ stands => .pure sound' (.some stands)
  | other tag => exact .pure sound ⟨rfl, rfl⟩

namespace OptionsStand

variable {o : Options} {place : Option Nat} {b' : Builder}

theorem fits (h : OptionsStand b o place) :
    ∀ v, place.map FieldValue.reference = some v → v.Fits b.size := by
  cases o with
  | fullyConnected a => exact Standing.fits h
  | softmax bits => exact Standing.fits h
  | other tag =>
    rw [h.2]
    intro v hv
    cases hv

theorem found (h : OptionsStand b o place) (grown : b.bytes <:+ b'.bytes) {front : List UInt8}
    (finished : File.Finished (front ++ b'.bytes).toArray) :
    Form.OptionsAt (front ++ b'.bytes).toArray o place := by
  cases o with
  | fullyConnected a => exact Standing.found h grown finished
  | softmax bits => exact Standing.found h grown finished
  | other tag => exact h

theorem tag {o : Options} (h : OptionsStand b o.stored place) :
    numberValue 1 (if place.isSome then o.tag else 0).toNat 0 = Form.optionsTag o.stored := by
  cases o with
  | fullyConnected a => cases h; rfl
  | softmax bits => cases h; rfl
  | other tag => rw [h.2]; rfl

end OptionsStand

theorem operator_makes (e : OperatorEntry) :
    (Write.operator e).Makes (Form.operator.Fits e.stored) := by
  intro b sound
  refine (From.option (fun a _ => Form.integers_makes a) sound).bind
    fun inputs b₁ sound₁ _ hinputs => ?_
  refine (From.option (fun a _ => Form.integers_makes a) sound₁).bind
    fun outputs b₂ sound₂ grown₂ houtputs => ?_
  refine (From.options sound₂).bind fun place b₃ sound₃ grown₃ hoptions => ?_
  have hinputs := hinputs.extend (grown₂.trans grown₃)
  have houtputs := houtputs.extend grown₃
  have tagged := hoptions.tag
  generalize (if place.isSome then e.options.tag else 0) = tag at tagged ⊢
  have fields : number32 Slot.Operator.codeIndex e.codeIndex 0 ++
      referred Slot.Operator.inputs inputs ++ referred Slot.Operator.outputs outputs ++
      number8 Slot.Operator.optionsTag tag 0 ++ referred Slot.Operator.options place =
      present 0 [numberValue 4 e.codeIndex.toNat 0, inputs.map .reference, outputs.map .reference,
        numberValue 1 tag.toNat 0, place.map .reference] := by
    simp [present, Slot.Operator.codeIndex, Slot.Operator.inputs, Slot.Operator.outputs,
      Slot.Operator.optionsTag, Slot.Operator.options, referred_eq, number8_eq, number32_eq]
  dsimp only
  rw [fields]
  refine .tableOf (by simp) ?_ sound₃ fun b₄ grown front finished p table => ?_
  · simp only [List.forall_mem_cons]
    exact ⟨numberValue_fits _ (.inr rfl) (UInt32.toNat_lt _), hinputs.fits, houtputs.fits,
      numberValue_fits _ (.inl rfl) (UInt8.toNat_lt _), hoptions.fits, List.forall_mem_nil _⟩
  · rw [tagged] at table
    exact Form.operator_fits (e := e.stored) table (hinputs.found grown finished)
      (houtputs.found grown finished) (hoptions.found grown finished)

theorem subgraph_makes (s : Subgraph) : (Write.subgraph s).Makes (Form.subgraph.Fits s.stored) := by
  intro b sound
  refine (From.option (fun ts _ => Form.tables_makes_self tensor_makes ts) sound).bind
    fun tensors b₁ sound₁ _ htensors => ?_
  refine (From.option (fun os _ => Form.tables_makes os fun o _ => operator_makes o) sound₁).bind
    fun operators b₂ sound₂ grown₂ hoperators => ?_
  refine (From.option (fun a _ => Form.integers_makes a) sound₂).bind
    fun inputs b₃ sound₃ grown₃ hinputs => ?_
  refine (From.option (fun a _ => Form.integers_makes a) sound₃).bind
    fun outputs b₄ sound₄ grown₄ houtputs => ?_
  refine (From.option (fun a _ => Form.text_makes a) sound₄).bind
    fun name b₅ sound₅ grown₅ hname => ?_
  have houtputs := houtputs.extend grown₅
  have hinputs := hinputs.extend (grown₄.trans grown₅)
  have hoperators := hoperators.map.extend (grown₃.trans (grown₄.trans grown₅))
  have htensors := htensors.extend (grown₂.trans (grown₃.trans (grown₄.trans grown₅)))
  have fields : referred Slot.Subgraph.tensors tensors ++ referred Slot.Subgraph.inputs inputs ++
      referred Slot.Subgraph.outputs outputs ++ referred Slot.Subgraph.operators operators ++
      referred Slot.Subgraph.name name =
      present 0 [tensors.map .reference, inputs.map .reference, outputs.map .reference,
        operators.map .reference, name.map .reference] := by
    simp [present, Slot.Subgraph.tensors, Slot.Subgraph.inputs, Slot.Subgraph.outputs,
      Slot.Subgraph.operators, Slot.Subgraph.name, referred_eq]
  rw [fields]
  refine .tableOf (by simp) ?_ sound₅ fun b₆ grown front finished p table => ?_
  · simp only [List.forall_mem_cons]
    exact ⟨htensors.fits, hinputs.fits, houtputs.fits, hoperators.fits, hname.fits,
      List.forall_mem_nil _⟩
  · exact Form.subgraph_fits table (htensors.found grown finished) (hinputs.found grown finished)
      (houtputs.found grown finished) (hoperators.found grown finished) (hname.found grown finished)

def modelAround (m : Model) (buffers : Option Nat) : Write Nat := do
  let operatorCodes ← m.operatorCodes.mapM (tables operatorCode)
  let subgraphs ← m.subgraphs.mapM (tables subgraph)
  let description ← m.description.mapM text
  table (number32 Slot.Model.version m.version 0 ++
    referred Slot.Model.operatorCodes operatorCodes ++
    referred Slot.Model.subgraphs subgraphs ++
    referred Slot.Model.description description ++
    referred Slot.Model.buffers buffers)

theorem model_eq (m : Model) :
    Write.model m = m.buffers.mapM (tables buffer) >>= modelAround m := rfl

theorem From.modelAround {m : Model} {buffers : Option Nat} {P : List Buffer → File → Nat → Prop}
    {Q : File → Nat → Prop} (hbuffers : Standing b P m.buffers buffers) (sound : b.Sound)
    (enough : ∀ (file : File) (p : Nat) (codes subgraphs description : Option Nat),
      file.HasTable [numberValue 4 m.version.toNat 0, codes.map .reference,
        subgraphs.map .reference, description.map .reference, buffers.map .reference] p →
      Form.operatorCode.tables.FitsAt file m.operatorCodes codes →
      Form.subgraph.tables.FitsAt file m.stored.subgraphs subgraphs →
      Form.text.FitsAt file m.description description →
      Option.Rel (fun bs place => P bs file (file.size - place)) m.buffers buffers → Q file p) :
    From b (modelAround m buffers) fun place b' => Stands b'.bytes place Q := by
  refine (From.option (fun cs _ => Form.tables_makes_self operatorCode_makes cs) sound).bind
    fun codes b₁ sound₁ grown₁ hcodes => ?_
  refine (From.option (fun ss _ => Form.tables_makes ss fun s _ => subgraph_makes s) sound₁).bind
    fun subgraphs b₂ sound₂ grown₂ hsubgraphs => ?_
  refine (From.option (fun a _ => Form.text_makes a) sound₂).bind
    fun description b₃ sound₃ grown₃ hdescription => ?_
  have hsubgraphs := hsubgraphs.map.extend grown₃
  have hcodes := hcodes.extend (grown₂.trans grown₃)
  have hbuffers := hbuffers.extend (grown₁.trans (grown₂.trans grown₃))
  have fields : number32 Slot.Model.version m.version 0 ++
      referred Slot.Model.operatorCodes codes ++ referred Slot.Model.subgraphs subgraphs ++
      referred Slot.Model.description description ++ referred Slot.Model.buffers buffers =
      present 0 [numberValue 4 m.version.toNat 0, codes.map .reference, subgraphs.map .reference,
        description.map .reference, buffers.map .reference] := by
    simp [present, Slot.Model.version, Slot.Model.operatorCodes, Slot.Model.subgraphs,
      Slot.Model.description, Slot.Model.buffers, referred_eq, number32_eq]
  rw [fields]
  refine .tableOf (by simp) ?_ sound₃ fun b₄ grown front finished p table => ?_
  · simp only [List.forall_mem_cons]
    exact ⟨numberValue_fits _ (.inr rfl) (UInt32.toNat_lt _), hcodes.fits, hsubgraphs.fits,
      hdescription.fits, hbuffers.fits, List.forall_mem_nil _⟩
  · exact enough _ p codes subgraphs description table (hcodes.found grown finished)
      (hsubgraphs.found grown finished) (hdescription.found grown finished)
      (hbuffers.found grown finished)

theorem model_makes (m : Model) : (Write.model m).Makes (Form.model.Fits m.stored) := by
  intro b sound
  rw [model_eq]
  refine (From.option (fun bs _ => Form.tables_makes_self buffer_makes bs) sound).bind
    fun buffers b₁ sound₁ _ hbuffers => ?_
  exact From.modelAround hbuffers sound₁ fun _ _ _ _ _ => Form.model_fits (m := m.stored)

def beforeRoot (identifier : List UInt8) (b : Builder) : Builder :=
  (b.pushed (List.replicate (gap b.size (4 + identifier.length) 4) 0)).pushed identifier

theorem fileOf_eq (identifier : List UInt8) (root : Write Nat) : fileOf identifier root =
    ((reference (root.run {}).1).run (beforeRoot identifier (root.run {}).2)).2.bytes := rfl

theorem gap_beforeRoot (identifier : List UInt8) (b : Builder) :
    gap (beforeRoot identifier b).size 4 4 = 0 := by
  have aligned := gap_add_mod b.size (4 + identifier.length) (show 0 < 4 by omega)
  apply gap_eq_zero
  simp only [beforeRoot, Builder.pushed_size, List.length_replicate]
  omega

end Write

theorem fileOf_holds {identifier : List UInt8} {root : Write Nat} {P : File → Nat → Prop}
    (stands : Stands (root.run {}).2.bytes (root.run {}).1 P)
    (small : (fileOf identifier root).length ≤ 0x80000000) :
    File.Holds (fileOf identifier root).toArray 4 identifier ∧
      ∃ p, File.Points (fileOf identifier root).toArray 0 p ∧
        P (fileOf identifier root).toArray p := by
  have bytes := Write.fileOf_eq identifier root
  generalize (root.run {}).1 = place at stands bytes
  generalize (root.run {}).2 = b at stands bytes
  have gap := Write.gap_beforeRoot identifier b
  have padding := Write.gap_add_mod (Write.beforeRoot identifier b).size 4 (show 0 < 4 by omega)
  have grown : b.bytes <:+ (Write.beforeRoot identifier b).bytes :=
    Builder.suffix_pushed.trans Builder.suffix_pushed
  have behind : place ≤ (Write.beforeRoot identifier b).size := by
    have := stands.1
    have := grown.length_le
    rw [(Write.beforeRoot identifier b).size_eq]
    omega
  have points := Write.reference_stands behind
  rw [Write.reference_run, gap] at points bytes
  rw [List.replicate_zero, List.append_nil] at points bytes
  rw [gap] at padding
  generalize hdistance : Word.bytes 4 _ = distance at points bytes
  have length : distance.length = 4 := by rw [← hdistance, Word.length_bytes]
  have size : (fileOf identifier root).toArray.size = 4 + (Write.beforeRoot identifier b).size := by
    rw [List.size_toArray, bytes, Builder.pushed_bytes, List.length_append, length,
      (Write.beforeRoot identifier b).size_eq]
  have finished : File.Finished (fileOf identifier root).toArray := ⟨by omega, small⟩
  rw [bytes] at finished size ⊢
  constructor
  · refine ⟨distance, List.replicate (Write.gap b.size (4 + identifier.length) 4) 0 ++ b.bytes, ?_,
      length⟩
    simp only [Write.beforeRoot, Builder.pushed_bytes, List.append_assoc]
  · have there := points.2 [] finished
    have model := (stands.extend (grown.trans Builder.suffix_pushed)).2 [] finished
    rw [List.nil_append, Builder.pushed_size, length, size, Nat.sub_self] at there
    rw [List.nil_append, size] at model
    exact ⟨_, there, model⟩

def Model.footprint (m : Model) : Usage := Usage.bytes 4 + Form.model.usage m.stored

/-- A container of at most two gigabytes carries the identifier, gives its content back, and the
walk goes through it at the content's price. -/
theorem Model.encode_read {m : Model} (small : m.encode.length ≤ 0x80000000) :
    File.hasIdentifier m.encode.toArray = true ∧
      File.content? m.encode.toArray = some m.stored ∧
      (Check.reference m.encode.toArray (Check.model m.encode.toArray) 0).Uses () m.footprint := by
  obtain ⟨-, -, stands⟩ := Write.model_makes m {} Builder.sound_empty
  obtain ⟨marked, p, points, read, walked⟩ := fileOf_holds stands small
  rw [← Model.encode] at marked points read walked
  have target := points.target?
  have read : File.model? m.encode.toArray p = some m.stored := read
  refine ⟨?_, ?_, .points points walked⟩
  · have bytes := marked.slice?
    have length : identifier.length = 4 := rfl
    rw [length] at bytes
    rw [File.hasIdentifier, bytes]
    exact beq_self_eq_true _
  · simp [File.content?, target, read]

theorem File.usage_of_uses {file : File} {d : Usage}
    (h : (Check.reference file (Check.model file) 0).Uses () d) :
    file.usage = .ok d ∨
      (file.usage = .error .tooManyTables ∧ Usage.maxTables < d.tables) ∨
      (file.usage = .error .apparentSizeTooLarge ∧ Usage.maxSize < d.size) := by
  have start : ({} : Usage) + d = d := zero_add d
  have run := h {}
  rw [start] at run
  unfold File.usage
  rcases run with run | ⟨run, beyond⟩ | ⟨run, beyond⟩
  · exact .inl (by rw [run]; rfl)
  · exact .inr (.inr ⟨by rw [run]; rfl, beyond⟩)
  · exact .inr (.inl ⟨by rw [run]; rfl, beyond⟩)

end LiteModel.Container
