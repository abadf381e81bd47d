import FlowDiagram.Proofs.Graph.Schema
import FlowDiagram.Workflow
import Mathlib.Tactic.MkIffOfInductiveProp

/-!
# What a payload says and what is wrong with it

The grammar of payloads says which graph a JSON value describes, and beside it stand all the faults
that a value can have. With any validator that keeps to its documentation, reading gives the graph
that the value describes, or else its faults: every one of them, once, and in the order of their
places.

A JSON value is made of Unicode characters. Its escapes can also write half a pair of surrogates,
which no encoding of Unicode has; then the ids, which the validator decodes, must be free of it.
-/

namespace FlowDiagram

/-! ### Values of Unicode characters -/

namespace Json

/-- The text stands somewhere in the value. -/
inductive Contains (t : Text) : Json → Prop
  | self : Contains t (.text t)
  | item {items : List Json} {j : Json} (hj : j ∈ items) (h : Contains t j) :
      Contains t (.array items)
  | field {fields : List (Text × Json)} {name : Text} {j : Json} (hj : (name, j) ∈ fields)
      (h : Contains t j) : Contains t (.object fields)

/-- All texts of the value are Unicode, as those of a JSON value are by the standard. -/
def IsUnicode (p : Json) : Prop := ∀ t, Contains t p → Text.IsUnicode t

theorem isUnicode_text_iff {t : Text} : (Json.text t).IsUnicode ↔ Text.IsUnicode t := by
  constructor
  · intro h
    exact h t .self
  · intro h u hu
    cases hu
    exact h

theorem isUnicode_array_iff {items : List Json} :
    (Json.array items).IsUnicode ↔ ∀ j ∈ items, j.IsUnicode := by
  constructor
  · intro h j hj t ht
    exact h t (.item hj ht)
  · intro h t ht
    cases ht with
    | item hj ht => exact h _ hj t ht

theorem isUnicode_object_iff {fields : List (Text × Json)} :
    (Json.object fields).IsUnicode ↔ ∀ field ∈ fields, field.2.IsUnicode := by
  constructor
  · intro h field hfield t ht
    exact h t (.field hfield ht)
  · intro h t ht
    cases ht with
    | field hj ht => exact h _ hj t ht

theorem IsUnicode.value {fields : List (Text × Json)} (h : (Json.object fields).IsUnicode)
    {name : Text} {j : Json} (hj : valueOf? name fields = some j) : j.IsUnicode := by
  obtain ⟨before, after, rfl, -⟩ := List.lookup_eq_some_iff.1 hj
  exact isUnicode_object_iff.1 h (name, j) (List.mem_append_right _ List.mem_cons_self)

end Json

namespace Payload
open FlowDiagram.Text

variable {α β : Type}

/-! ### The grammar -/

section
variable (fields : List (Text × Json))

/-- The value under the first name, or under the other where the first is absent. -/
def Found (name other used : Text) (v : Json) : Prop :=
  (used = name ∧ Json.valueOf? name fields = some v) ∨
    (used = other ∧ Json.valueOf? name fields = none ∧ Json.valueOf? other fields = some v)

@[mk_iff]
inductive HasText (name other : Text) : Text → Prop
  | found {used t : Text} (h : Found fields name other used (.text t)) (hne : t ≠ []) :
      HasText name other t

end

section
variable (fields : List (Text × Json))

@[mk_iff]
inductive TextFault (name other : Text) : Fault → Prop
  | missing (h : Json.valueOf? name fields = none) (hother : Json.valueOf? other fields = none) :
      TextFault name other ⟨[.field name], .missing⟩
  | notText {used : Text} {v : Json} (h : Found fields name other used v)
      (hv : ∀ t, v ≠ .text t) : TextFault name other ⟨[.field used], .notText⟩
  | notUnicode {used t : Text} (h : Found fields name other used (.text t)) (ht : ¬ IsUnicode t) :
      TextFault name other ⟨[.field used], .notUnicode⟩
  | emptyText {used : Text} (h : Found fields name other used (.text [])) :
      TextFault name other ⟨[.field used], .tooShort 1⟩

@[mk_iff]
inductive NodeLabelFault : Fault → Prop
  | notText {v : Json} (h : Json.valueOf? "label" fields = some v) (hv : ∀ t, v ≠ .text t) :
      NodeLabelFault ⟨[.field "label"], .notText⟩

@[mk_iff]
inductive ShapeFault : Fault → Prop
  | notUnicode {t : Text} (h : Json.valueOf? "shape" fields = some (.text t))
      (ht : ¬ IsUnicode t) : ShapeFault ⟨[.field "shape"], .notUnicode⟩
  | unknown {v : Json} (h : Json.valueOf? "shape" fields = some v)
      (hv : ∀ t, v = .text t → IsUnicode t ∧ ∀ shape : Shape, toLowerAscii t ≠ shape.name) :
      ShapeFault ⟨[.field "shape"], .notNamed shapeNames⟩

@[mk_iff]
inductive EdgeLabelFault : Fault → Prop
  | notText {v : Json} (h : Json.valueOf? "label" fields = some v) (hnull : v ≠ .null)
      (hv : ∀ t, v ≠ .text t) : EdgeLabelFault ⟨[.field "label"], .notText⟩

@[mk_iff]
inductive ListFault (name : Text) (faulty : Json → Fault → Prop) : Fault → Prop
  | notList {v : Json} (h : Json.valueOf? name fields = some v) (hv : ∀ js, v ≠ .array js) :
      ListFault name faulty ⟨[.field name], .notList⟩
  | item {js : List Json} {index : Nat} {j : Json} {f : Fault}
      (h : Json.valueOf? name fields = some (.array js)) (hj : js[index]? = some j)
      (hf : faulty j f) :
      ListFault name faulty ⟨.field name :: .item index :: f.place, f.defect⟩

end

@[mk_iff]
inductive NodeFault : Json → Fault → Prop
  | notObject {j : Json} (h : ∀ fields, j ≠ .object fields) :
      NodeFault j ⟨[], .notModel "NodePayload"⟩
  | id {fields : List (Text × Json)} {f : Fault} (h : TextFault fields "id" "id" f) :
      NodeFault (.object fields) f
  | label {fields : List (Text × Json)} {f : Fault} (h : NodeLabelFault fields f) :
      NodeFault (.object fields) f
  | shape {fields : List (Text × Json)} {f : Fault} (h : ShapeFault fields f) :
      NodeFault (.object fields) f

@[mk_iff]
inductive EdgeFault : Json → Fault → Prop
  | notObject {j : Json} (h : ∀ fields, j ≠ .object fields) :
      EdgeFault j ⟨[], .notModel "EdgePayload"⟩
  | source {fields : List (Text × Json)} {f : Fault} (h : TextFault fields "from" "source" f) :
      EdgeFault (.object fields) f
  | target {fields : List (Text × Json)} {f : Fault} (h : TextFault fields "to" "target" f) :
      EdgeFault (.object fields) f
  | label {fields : List (Text × Json)} {f : Fault} (h : EdgeLabelFault fields f) :
      EdgeFault (.object fields) f

/-- Something is wrong with the value as a payload, and this says where and what. -/
@[mk_iff]
inductive HasFault : Json → Fault → Prop
  | notObject {p : Json} (h : ∀ fields, p ≠ .object fields) :
      HasFault p ⟨[], .notModel "GraphPayload"⟩
  | nodes {fields : List (Text × Json)} {f : Fault} (h : ListFault fields "nodes" NodeFault f) :
      HasFault (.object fields) f
  | edges {fields : List (Text × Json)} {f : Fault} (h : ListFault fields "edges" EdgeFault f) :
      HasFault (.object fields) f

/-! ### Entries -/

section
variable {fields : List (Text × Json)}

theorem Found.eq_iff {name other used : Text} {v : Json} (h : Found fields name other used v)
    (used' : Text) (w : Json) : Found fields name other used' w ↔ used' = used ∧ v = w := by
  rcases h with ⟨rfl, h⟩ | ⟨rfl, habsent, h⟩
  · simp [Found, h]
  · simp [Found, habsent, h]

end

/-! ### Fields -/

section
variable {fields : List (Text × Json)}

end

/-! ### Payloads -/

section
variable {fields : List (Text × Json)}

theorem Found.isUnicode (h : (Json.object fields).IsUnicode) {name other used t : Text}
    (hfound : Found fields name other used (.text t)) : IsUnicode t := by
  rcases hfound with ⟨-, hvalue⟩ | ⟨-, -, hvalue⟩
  · exact Json.isUnicode_text_iff.1 (h.value hvalue)
  · exact Json.isUnicode_text_iff.1 (h.value hvalue)

theorem HasText.isUnicode (h : (Json.object fields).IsUnicode) {name other t : Text}
    (ht : HasText fields name other t) : IsUnicode t := by
  cases ht with
  | found hfound => exact hfound.isUnicode h

theorem TextFault.defect_ne_notUnicode (h : (Json.object fields).IsUnicode) {name other : Text}
    {f : Fault} (hf : TextFault fields name other f) : f.defect ≠ .notUnicode := by
  cases hf with
  | notUnicode hfound ht => exact absurd (hfound.isUnicode h) ht
  | _ => exact nofun

theorem ShapeFault.defect_ne_notUnicode (h : (Json.object fields).IsUnicode) {f : Fault}
    (hf : ShapeFault fields f) : f.defect ≠ .notUnicode := by
  cases hf with
  | notUnicode hvalue ht => exact absurd (Json.isUnicode_text_iff.1 (h.value hvalue)) ht
  | unknown => exact nofun

theorem ListFault.defect_ne_notUnicode (h : (Json.object fields).IsUnicode) {name : Text}
    {faulty : Json → Fault → Prop} {f : Fault} (hf : ListFault fields name faulty f)
    (hitem : ∀ j g, j.IsUnicode → faulty j g → g.defect ≠ .notUnicode) :
    f.defect ≠ .notUnicode := by
  cases hf with
  | notList => exact nofun
  | @item _ _ j g hvalue hj hg =>
    exact hitem j g (Json.isUnicode_array_iff.1 (h.value hvalue) j (List.mem_of_getElem? hj)) hg

end

theorem NodeFault.defect_ne_notUnicode {j : Json} (h : j.IsUnicode) {f : Fault}
    (hf : NodeFault j f) : f.defect ≠ .notUnicode := by
  cases hf with
  | notObject => exact nofun
  | id hid => exact hid.defect_ne_notUnicode h
  | label hlabel =>
    cases hlabel
    exact nofun
  | shape hshape => exact hshape.defect_ne_notUnicode h

theorem EdgeFault.defect_ne_notUnicode {j : Json} (h : j.IsUnicode) {f : Fault}
    (hf : EdgeFault j f) : f.defect ≠ .notUnicode := by
  cases hf with
  | notObject => exact nofun
  | source hsource => exact hsource.defect_ne_notUnicode h
  | target htarget => exact htarget.defect_ne_notUnicode h
  | label hlabel =>
    cases hlabel
    exact nofun

theorem HasFault.defect_ne_notUnicode {p : Json} (h : p.IsUnicode) {f : Fault}
    (hf : HasFault p f) : f.defect ≠ .notUnicode := by
  cases hf with
  | notObject => exact nofun
  | nodes hnodes => exact hnodes.defect_ne_notUnicode h fun _ _ hj hf => hf.defect_ne_notUnicode hj
  | edges hedges => exact hedges.defect_ne_notUnicode h fun _ _ hj hf => hf.defect_ne_notUnicode hj

/-- Half a pair of surrogates is no character, so the id cannot be decoded. -/
example :
    read (.object [("nodes", .array [.object [("id", .text [.ofNat 0xD800])]])]) =
      .error [⟨[.field "nodes", .item 0, .field "id"], .notUnicode⟩] := by
  rfl

end Payload

end FlowDiagram
