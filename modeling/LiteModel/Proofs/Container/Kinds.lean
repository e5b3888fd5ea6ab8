import LiteModel.Container.Structure
import LiteModel.Proofs.Container.Forms

/-! The eight kinds of tables as kinds of objects. Where a table stands whose fields hold what an
entry says, reading gives the entry and the walk passes at the entry's price. -/
namespace LiteModel.Container

namespace Form

open Write

def buffer : Form Buffer where
  read := File.buffer?
  check := Check.buffer
  usage b := Usage.table [Usage.reference bytes b.data]

/-- The second field is the name of an operator of its own kind, which no container has. -/
def operatorCode : Form OperatorCode where
  read := File.operatorCode?
  check := Check.operatorCode
  usage c := Usage.table [Usage.number 1 c.deprecatedCode.toUInt8.toNat 0, none,
    Usage.number 4 c.version.toUInt32.toNat 1, Usage.number 4 c.builtinCode.toUInt32.toNat 0]

def tensor : Form TensorEntry where
  read := File.tensor?
  check := Check.tensor
  usage t := Usage.table [Usage.reference integers t.shape,
    Usage.number 1 t.typeCode.toUInt8.toNat 0, Usage.number 4 t.buffer.toNat 0,
    Usage.reference text t.name]

def activation : Form Int8 where
  read := File.activation?
  check := Check.fullyConnected
  usage a := Usage.table [Usage.number 1 a.toUInt8.toNat 0, none, none]

def beta : Form UInt32 where
  read := File.beta?
  check := Check.softmax
  usage bits := Usage.table [Usage.number 4 bits.toNat 0]

def optionsUsage : Options → Option Usage
  | .fullyConnected a => some (Usage.bytes 4 + activation.usage a)
  | .softmax bits => some (Usage.bytes 4 + beta.usage bits)
  | .other _ => none

def operator : Form OperatorEntry where
  read := File.operator?
  check := Check.operator
  usage o := Usage.table [Usage.number 4 o.codeIndex.toNat 0, Usage.reference integers o.inputs,
    Usage.reference integers o.outputs, (optionsUsage o.options).map fun _ => Usage.bytes 1,
    optionsUsage o.options]

def subgraph : Form Subgraph where
  read := File.subgraph?
  check := Check.subgraph
  usage s := Usage.table [Usage.reference tensor.tables s.tensors,
    Usage.reference integers s.inputs, Usage.reference integers s.outputs,
    Usage.reference operator.tables s.operators, Usage.reference text s.name]

def model : Form Model where
  read := File.model?
  check := Check.model
  usage m := Usage.table [Usage.number 4 m.version.toNat 0,
    Usage.reference operatorCode.tables m.operatorCodes,
    Usage.reference subgraph.tables m.subgraphs, Usage.reference text m.description,
    Usage.reference buffer.tables m.buffers]

theorem isSome_number (width value default : Nat) :
    (numberValue width value default).isSome = (Usage.number width value default).isSome := by
  unfold numberValue Usage.number
  split <;> rfl

theorem isSome_reference {α : Type} (F : Form α) {P : α → Nat → Prop} {o : Option α}
    {place : Option Nat} (h : Option.Rel P o place) :
    (place.map FieldValue.reference).isSome = (Usage.reference F o).isSome := by
  cases h <;> rfl

def FitsAt {α : Type} (F : Form α) (file : File) (o : Option α) (place : Option Nat) : Prop :=
  Option.Rel (fun a p => F.Fits a file (file.size - p)) o place

variable {file : File} {position : Nat}

theorem buffer_fits {b : Buffer} {data : Option Nat}
    (table : file.HasTable [data.map .reference] position) (hdata : bytes.FitsAt file b.data data) :
    buffer.Fits b file position := by
  obtain ⟨t, found, walked, fields⟩ := table.priced [Usage.reference bytes b.data]
    (by simp only [List.map_cons, List.map_nil, isSome_reference bytes hdata])
  obtain ⟨(read : file.referred? t.view Slot.Buffer.data file.bytes? = _), visited⟩ :=
    (fields 0).referred hdata
  constructor
  · change File.buffer? file position = some b
    simp [File.buffer?, found, read]
  · exact walked.bind visited

theorem operatorCode_fits {c : OperatorCode}
    (table : file.HasTable [numberValue 1 c.deprecatedCode.toUInt8.toNat 0, none,
      numberValue 4 c.version.toUInt32.toNat 1, numberValue 4 c.builtinCode.toUInt32.toNat 0]
      position) :
    operatorCode.Fits c file position := by
  obtain ⟨t, found, walked, fields⟩ := table.priced
    [Usage.number 1 c.deprecatedCode.toUInt8.toNat 0, none,
      Usage.number 4 c.version.toUInt32.toNat 1, Usage.number 4 c.builtinCode.toUInt32.toNat 0]
    (by simp only [List.map_cons, List.map_nil, isSome_number, Option.isSome_none])
  obtain ⟨(readCode : file.number? t.view Slot.OperatorCode.deprecatedCode 1 0 = _), deprecated⟩ :=
    (fields 0).number
  have noName : text.FitsAt file none none := .none
  obtain ⟨-, custom⟩ := (fields 1).referred noName
  obtain ⟨(readVersion : file.number? t.view Slot.OperatorCode.version 4 1 = _), version⟩ :=
    (fields 2).number
  obtain ⟨(readBuiltin : file.number? t.view Slot.OperatorCode.builtinCode 4 0 = _), builtin⟩ :=
    (fields 3).number
  constructor
  · change File.operatorCode? file position = some c
    simp only [File.operatorCode?, found, readCode, readVersion, readBuiltin, toInt8_toUInt8,
      toInt32_toUInt32, Option.bind_eq_bind, Option.bind_some, Option.pure_def]
  · exact walked.bind (deprecated.bind (custom.bind (version.bind builtin)))

theorem tensor_fits {e : TensorEntry} {shape name : Option Nat}
    (table : file.HasTable [shape.map .reference, numberValue 1 e.typeCode.toUInt8.toNat 0,
      numberValue 4 e.buffer.toNat 0, name.map .reference] position)
    (hshape : integers.FitsAt file e.shape shape) (hname : text.FitsAt file e.name name) :
    tensor.Fits e file position := by
  obtain ⟨t, found, walked, fields⟩ := table.priced
    [Usage.reference integers e.shape, Usage.number 1 e.typeCode.toUInt8.toNat 0,
      Usage.number 4 e.buffer.toNat 0, Usage.reference text e.name]
    (by simp only [List.map_cons, List.map_nil, isSome_number, isSome_reference integers hshape,
      isSome_reference text hname])
  obtain ⟨(readShape : file.referred? t.view Slot.Tensor.shape file.integers? = _), shape⟩ :=
    (fields 0).referred hshape
  obtain ⟨(readType : file.number? t.view Slot.Tensor.typeCode 1 0 = _), typeCode⟩ :=
    (fields 1).number
  obtain ⟨(readBuffer : file.number? t.view Slot.Tensor.buffer 4 0 = _), buffer⟩ :=
    (fields 2).number
  obtain ⟨(readName : file.referred? t.view Slot.Tensor.name file.countedText? = _), name⟩ :=
    (fields 3).referred hname
  constructor
  · change File.tensor? file position = some e
    simp only [File.tensor?, found, readShape, readType, readBuffer, readName, toInt8_toUInt8,
      UInt32.ofNat_toNat, Option.bind_eq_bind, Option.bind_some, Option.pure_def]
  · exact walked.bind (shape.bind (typeCode.bind (buffer.bind name)))

theorem activation_fits {a : Int8}
    (table : file.HasTable [numberValue 1 a.toUInt8.toNat 0, none, none] position) :
    activation.Fits a file position := by
  obtain ⟨t, found, walked, fields⟩ := table.priced [Usage.number 1 a.toUInt8.toNat 0, none, none]
    (by simp only [List.map_cons, List.map_nil, isSome_number, Option.isSome_none])
  obtain ⟨(read : file.number? t.view Slot.FullyConnected.activation 1 0 = _), visited⟩ :=
    (fields 0).number
  have absent : ∀ n, file.FieldIs t (extent [Usage.number 1 a.toUInt8.toNat 0, none, none]) n none →
      (Check.field file t (Slot.ofField n) (Check.scalar file 1)).Uses ()
        (Usage.field (extent [Usage.number 1 a.toUInt8.toNat 0, none, none]) n none) := by
    intro n h
    have left : file.FieldIs t _ n (numberValue 1 0 0) := h
    exact left.number.2
  constructor
  · change File.activation? file position = some a
    simp only [File.activation?, found, read, toInt8_toUInt8, Option.bind_eq_bind,
      Option.bind_some, Option.pure_def]
  · exact walked.bind (visited.bind ((absent 1 (fields 1)).bind (absent 2 (fields 2))))

theorem beta_fits {bits : UInt32} (table : file.HasTable [numberValue 4 bits.toNat 0] position) :
    beta.Fits bits file position := by
  obtain ⟨t, found, walked, fields⟩ := table.priced [Usage.number 4 bits.toNat 0]
    (by simp only [List.map_cons, List.map_nil, isSome_number])
  obtain ⟨(read : file.number? t.view Slot.Softmax.beta 4 0 = _), visited⟩ := (fields 0).number
  constructor
  · change File.beta? file position = some bits
    simp only [File.beta?, found, read, UInt32.ofNat_toNat, Option.bind_eq_bind, Option.bind_some,
      Option.pure_def]
  · exact walked.bind visited

def OptionsAt (file : File) : Options → Option Nat → Prop
  | .fullyConnected a, place => activation.FitsAt file (some a) place
  | .softmax bits, place => beta.FitsAt file (some bits) place
  | .other tag, place => tag = 0 ∧ place = none

/-- The tag that is written beside a table of options, or none. -/
def optionsTag (o : Options) : Option FieldValue :=
  (optionsUsage o).map fun _ => .number 1 o.tag.toNat

theorem optionsTag_eq {o : Options} {place : Option Nat} (h : OptionsAt file o place) :
    optionsTag o = numberValue 1 o.tag.toNat 0 := by
  cases o with
  | fullyConnected a => rfl
  | softmax bits => rfl
  | other tag =>
    obtain ⟨rfl, -⟩ := h
    rfl

theorem options?_eq {t : Check.Table} {o : Options} {place : Option Nat} {fields : Nat}
    (htag : file.FieldIs t fields 3 (optionsTag o))
    (hvalue : file.FieldIs t fields 4 (place.map .reference)) (h : OptionsAt file o place) :
    file.options? t.view = some o := by
  rw [optionsTag_eq h] at htag
  have tag : file.number? t.view Slot.Operator.optionsTag 1 0 = some o.tag.toNat := htag.number.1
  rw [File.options?, tag, Option.bind_eq_bind, Option.bind_some, UInt8.ofNat_toNat]
  cases o with
  | fullyConnected a =>
    have h : activation.FitsAt file (some a) place := h
    have read : file.referred? t.view Slot.Operator.options file.activation? = some (some a) :=
      (hvalue.referred h).1
    rw [Options.tag, if_pos rfl, read]
    rfl
  | softmax bits =>
    have h : beta.FitsAt file (some bits) place := h
    have read : file.referred? t.view Slot.Operator.options file.beta? = some (some bits) :=
      (hvalue.referred h).1
    rw [Options.tag, if_neg (by decide), if_pos rfl, read]
    rfl
  | other code =>
    obtain ⟨rfl, rfl⟩ := h
    rw [Options.tag, if_neg (by decide), if_neg (by decide)]
    rfl

theorem options_uses {t : Check.Table} {o : Options} {place : Option Nat} {fields : Nat}
    (htag : file.FieldIs t fields 3 (optionsTag o))
    (hvalue : file.FieldIs t fields 4 (place.map .reference)) (h : OptionsAt file o place) :
    (Check.options file t).Uses () (Usage.field fields 3 ((optionsUsage o).map fun _ => .bytes 1) +
      Usage.field fields 4 (optionsUsage o)) := by
  obtain ⟨_, -, lookedTag, tag⟩ := htag
  obtain ⟨_, -, looked, value⟩ := hvalue
  -- the walk looks up the table and then its tag, the prices are listed the other way round
  have order : ∀ a b c d : Usage, a + b + (c + d) = c + (a + (b + d)) := by
    intro a b c d
    ext <;> simp only [Usage.size_add, Usage.tables_add] <;> omega
  cases o with
  | fullyConnected a =>
    cases h with
    | some fits =>
      cases tag with
      | some word =>
        cases value with
        | some points =>
          refine Eq.subst (order _ _ _ _).symm ?_
          exact looked.bind (lookedTag.bind ((Check.Uses.word word).bind (.points points fits.2)))
  | softmax bits =>
    cases h with
    | some fits =>
      cases tag with
      | some word =>
        cases value with
        | some points =>
          refine Eq.subst (order _ _ _ _).symm ?_
          exact looked.bind (lookedTag.bind ((Check.Uses.word word).bind (.points points fits.2)))
  | other code =>
    obtain ⟨rfl, rfl⟩ := h
    cases tag
    cases value
    refine Eq.subst (order _ _ _ _).symm ?_
    exact looked.bind (lookedTag.bind (.pure ()))

theorem operator_fits {e : OperatorEntry} {inputs outputs options : Option Nat}
    (table : file.HasTable [numberValue 4 e.codeIndex.toNat 0, inputs.map .reference,
      outputs.map .reference, optionsTag e.options, options.map .reference] position)
    (hinputs : integers.FitsAt file e.inputs inputs)
    (houtputs : integers.FitsAt file e.outputs outputs)
    (hoptions : OptionsAt file e.options options) :
    operator.Fits e file position := by
  have tagged : (optionsTag e.options).isSome =
      ((optionsUsage e.options).map fun _ => Usage.bytes 1).isSome := by
    rw [optionsTag, Option.isSome_map, Option.isSome_map]
  have beside : (options.map FieldValue.reference).isSome = (optionsUsage e.options).isSome := by
    rw [Option.isSome_map]
    generalize e.options = o at hoptions
    cases o with
    | fullyConnected a => cases hoptions; rfl
    | softmax bits => cases hoptions; rfl
    | other tag => rw [hoptions.2]; rfl
  obtain ⟨t, found, walked, fields⟩ := table.priced
    [Usage.number 4 e.codeIndex.toNat 0, Usage.reference integers e.inputs,
      Usage.reference integers e.outputs, (optionsUsage e.options).map fun _ => Usage.bytes 1,
      optionsUsage e.options]
    (by simp only [List.map_cons, List.map_nil, isSome_number, isSome_reference integers hinputs,
      isSome_reference integers houtputs, tagged, beside])
  obtain ⟨(readCode : file.number? t.view Slot.Operator.codeIndex 4 0 = _), codeIndex⟩ :=
    (fields 0).number
  obtain ⟨(readInputs : file.referred? t.view Slot.Operator.inputs file.integers? = _), inputs⟩ :=
    (fields 1).referred hinputs
  obtain ⟨(readOutputs : file.referred? t.view Slot.Operator.outputs file.integers? = _),
    outputs⟩ := (fields 2).referred houtputs
  have readOptions := options?_eq (fields 3) (fields 4) hoptions
  have options := options_uses (fields 3) (fields 4) hoptions
  constructor
  · change File.operator? file position = some e
    simp only [File.operator?, found, readCode, readInputs, readOutputs, readOptions,
      UInt32.ofNat_toNat, Option.bind_eq_bind, Option.bind_some, Option.pure_def]
  · exact walked.bind (codeIndex.bind (inputs.bind (outputs.bind options)))

theorem subgraph_fits {s : Subgraph} {tensors inputs outputs operators name : Option Nat}
    (table : file.HasTable [tensors.map .reference, inputs.map .reference, outputs.map .reference,
      operators.map .reference, name.map .reference] position)
    (htensors : tensor.tables.FitsAt file s.tensors tensors)
    (hinputs : integers.FitsAt file s.inputs inputs)
    (houtputs : integers.FitsAt file s.outputs outputs)
    (hoperators : operator.tables.FitsAt file s.operators operators)
    (hname : text.FitsAt file s.name name) :
    subgraph.Fits s file position := by
  obtain ⟨t, found, walked, fields⟩ := table.priced
    [Usage.reference tensor.tables s.tensors, Usage.reference integers s.inputs,
      Usage.reference integers s.outputs, Usage.reference operator.tables s.operators,
      Usage.reference text s.name]
    (by simp only [List.map_cons, List.map_nil, isSome_reference tensor.tables htensors,
      isSome_reference integers hinputs, isSome_reference integers houtputs,
      isSome_reference operator.tables hoperators, isSome_reference text hname])
  obtain ⟨(readTensors : file.referred? t.view Slot.Subgraph.tensors
    (file.tables? file.tensor?) = _), tensors⟩ := (fields 0).referred htensors
  obtain ⟨(readInputs : file.referred? t.view Slot.Subgraph.inputs file.integers? = _), inputs⟩ :=
    (fields 1).referred hinputs
  obtain ⟨(readOutputs : file.referred? t.view Slot.Subgraph.outputs file.integers? = _),
    outputs⟩ := (fields 2).referred houtputs
  obtain ⟨(readOperators : file.referred? t.view Slot.Subgraph.operators
    (file.tables? file.operator?) = _), operators⟩ := (fields 3).referred hoperators
  obtain ⟨(readName : file.referred? t.view Slot.Subgraph.name file.countedText? = _), name⟩ :=
    (fields 4).referred hname
  constructor
  · change File.subgraph? file position = some s
    simp only [File.subgraph?, found, readTensors, readInputs, readOutputs, readOperators, readName,
      Option.bind_eq_bind, Option.bind_some, Option.pure_def]
  · exact walked.bind (tensors.bind (inputs.bind (outputs.bind (operators.bind name))))

theorem model_fits {m : Model} {codes subgraphs description buffers : Option Nat}
    (table : file.HasTable [numberValue 4 m.version.toNat 0, codes.map .reference,
      subgraphs.map .reference, description.map .reference, buffers.map .reference] position)
    (hcodes : operatorCode.tables.FitsAt file m.operatorCodes codes)
    (hsubgraphs : subgraph.tables.FitsAt file m.subgraphs subgraphs)
    (hdescription : text.FitsAt file m.description description)
    (hbuffers : buffer.tables.FitsAt file m.buffers buffers) :
    model.Fits m file position := by
  obtain ⟨t, found, walked, fields⟩ := table.priced
    [Usage.number 4 m.version.toNat 0, Usage.reference operatorCode.tables m.operatorCodes,
      Usage.reference subgraph.tables m.subgraphs, Usage.reference text m.description,
      Usage.reference buffer.tables m.buffers]
    (by simp only [List.map_cons, List.map_nil, isSome_number,
      isSome_reference operatorCode.tables hcodes, isSome_reference subgraph.tables hsubgraphs,
      isSome_reference text hdescription, isSome_reference buffer.tables hbuffers])
  obtain ⟨(readVersion : file.number? t.view Slot.Model.version 4 0 = _), version⟩ :=
    (fields 0).number
  obtain ⟨(readCodes : file.referred? t.view Slot.Model.operatorCodes
    (file.tables? file.operatorCode?) = _), codes⟩ := (fields 1).referred hcodes
  obtain ⟨(readSubgraphs : file.referred? t.view Slot.Model.subgraphs
    (file.tables? file.subgraph?) = _), subgraphs⟩ := (fields 2).referred hsubgraphs
  obtain ⟨(readDescription : file.referred? t.view Slot.Model.description file.countedText? = _),
    description⟩ := (fields 3).referred hdescription
  obtain ⟨(readBuffers : file.referred? t.view Slot.Model.buffers (file.tables? file.buffer?) = _),
    buffers⟩ := (fields 4).referred hbuffers
  constructor
  · change File.model? file position = some m
    simp only [File.model?, found, readVersion, readCodes, readSubgraphs, readDescription,
      readBuffers, UInt32.ofNat_toNat, Option.bind_eq_bind, Option.bind_some, Option.pure_def]
  · exact walked.bind (version.bind (codes.bind (subgraphs.bind (description.bind buffers))))

end Form

end LiteModel.Container
