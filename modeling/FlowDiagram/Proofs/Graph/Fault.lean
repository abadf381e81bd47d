import FlowDiagram.Graph.Schema
import Mathlib.Data.List.Forall2
import Mathlib.Data.List.Lex
import Mathlib.Data.List.Sort

/-!
# The order of faults

Faults come in the order of their places: items by their index, and fields as they are declared.
What is read of a value meets its description if it is the value described, or else all the faults
there are, once and in this order. That is kept when two values are read, or all items of a list.
-/

namespace FlowDiagram.Payload
open FlowDiagram.Text

variable {α β : Type}

/-! ### The order of places -/

/-- The names of fields as they are declared: those of a graph, of a node and of an edge. The two
names for one end of an edge stand together. -/
def declaredFields : List Text :=
  ["nodes", "edges", "id", "from", "source", "to", "target", "label", "shape"]

def Step.rank : Step → Nat
  | field name => declaredFields.idxOf name
  | item index => index

namespace Fault

/-- At the first step that differs the place of the one fault is the earlier field or item. -/
def Before (f g : Fault) : Prop := f.place.map Step.rank < g.place.map Step.rank

instance : Std.Irrefl Before := ⟨fun f => lt_irrefl (f.place.map Step.rank)⟩

instance : Std.Antisymm Before := ⟨fun _ _ hfg hgf => absurd hgf (lt_asymm hfg)⟩

theorem before_cons {step : Step} {f g : Fault} (h : f.Before g) :
    Before ⟨step :: f.place, f.defect⟩ ⟨step :: g.place, g.defect⟩ := by
  simp only [Before, List.map_cons]
  exact List.cons_lt_cons_iff.2 (Or.inr ⟨rfl, h⟩)

theorem before_of_rank_lt {s t : Step} {p q : List Step} {d e : Defect} (h : s.rank < t.rank) :
    Before ⟨s :: p, d⟩ ⟨t :: q, e⟩ := by
  simp only [Before, List.map_cons]
  exact List.cons_lt_cons_iff.2 (Or.inl h)

/-- The fault lies under one of the names. -/
def Under (names : List Text) (f : Fault) : Prop :=
  ∃ name ∈ names, ∃ place, f.place = .field name :: place

theorem Under.before {names others : List Text} {f g : Fault} (hf : f.Under names)
    (hg : g.Under others)
    (h : ∀ name ∈ names, ∀ other ∈ others, (Step.field name).rank < (Step.field other).rank) :
    f.Before g := by
  obtain ⟨place, defect⟩ := f
  obtain ⟨place', defect'⟩ := g
  obtain ⟨name, hname, p, rfl⟩ := hf
  obtain ⟨other, hother, q, rfl⟩ := hg
  exact before_of_rank_lt (h name hname other hother)

end Fault

/-! ### Checked values -/

namespace Checked

def faults (a : Checked α) : List Fault :=
  match a with
  | .ok _ => []
  | .error faults => faults

@[simp] theorem faults_both (a : Checked α) (b : Checked β) :
    (both a b).faults = a.faults ++ b.faults := by
  cases a <;> cases b <;> simp [both, faults]

@[simp] theorem faults_within (step : Step) (a : Checked α) :
    (within step a).faults = a.faults.map fun f => { f with place := step :: f.place } := by
  cases a <;> rfl

@[simp] theorem faults_map (e : α → β) (a : Checked α) :
    faults (a.map e : Checked β) = a.faults := by
  cases a <;> rfl

theorem both_eq_ok_iff {a : Checked α} {b : Checked β} {x : α × β} :
    both a b = .ok x ↔ a = .ok x.1 ∧ b = .ok x.2 := by
  cases a <;> cases b <;> simp [both, Prod.ext_iff]

theorem within_eq_ok_iff {step : Step} {a : Checked α} {x : α} :
    within step a = .ok x ↔ a = .ok x := by
  cases a <;> simp [within]

theorem map_eq_ok_iff {e : α → β} {a : Checked α} {y : β} :
    (a.map e : Checked β) = .ok y ↔ ∃ x, a = .ok x ∧ e x = y := by
  cases a <;> simp [Except.map]

/-- The value is the one that is described, or else all the faults are there in their order. -/
structure Meets (a : Checked α) (describes : α → Prop) (faulty : Fault → Prop) : Prop where
  ok_iff : ∀ x, a = .ok x ↔ describes x
  mem_faults_iff : ∀ f, f ∈ a.faults ↔ faulty f
  pairwise : a.faults.Pairwise Fault.Before
  exists_ok : a.faults = [] → ∃ x, a = .ok x

section
variable {a : Checked α} {b : Checked β} {describes : α → Prop} {describes' : β → Prop}
  {faulty faulty' : Fault → Prop}

theorem meets_ok {x : α} (hx : ∀ y, describes y ↔ y = x) (hnone : ∀ f, ¬ faulty f) :
    Meets (.ok x) describes faulty where
  ok_iff y := by rw [hx, Except.ok.injEq, eq_comm]
  mem_faults_iff f := iff_of_false (List.not_mem_nil) (hnone f)
  pairwise := List.Pairwise.nil
  exists_ok _ := ⟨x, rfl⟩

theorem meets_fault {place : List Step} {defect : Defect} (hnone : ∀ x, ¬ describes x)
    (hfault : ∀ f, faulty f ↔ f = ⟨place, defect⟩) :
    Meets (fault place defect) describes faulty where
  ok_iff x := iff_of_false (by simp [fault]) (hnone x)
  mem_faults_iff f := by rw [hfault, fault, faults, List.mem_singleton]
  pairwise := List.pairwise_singleton _ _
  exists_ok h := absurd h (by simp [fault, faults])

theorem Meets.both (ha : Meets a describes faulty) (hb : Meets b describes' faulty')
    (hbefore : ∀ f g, faulty f → faulty' g → f.Before g) :
    Meets (both a b) (fun x => describes x.1 ∧ describes' x.2) fun f => faulty f ∨ faulty' f where
  ok_iff x := by rw [both_eq_ok_iff, ha.ok_iff, hb.ok_iff]
  mem_faults_iff f := by
    rw [faults_both, List.mem_append, ha.mem_faults_iff, hb.mem_faults_iff]
  pairwise := by
    rw [faults_both, List.pairwise_append]
    exact ⟨ha.pairwise, hb.pairwise, fun f hf g hg =>
      hbefore f g ((ha.mem_faults_iff f).1 hf) ((hb.mem_faults_iff g).1 hg)⟩
  exists_ok h := by
    rw [faults_both, List.append_eq_nil_iff] at h
    obtain ⟨x, hx⟩ := ha.exists_ok h.1
    obtain ⟨y, hy⟩ := hb.exists_ok h.2
    exact ⟨(x, y), both_eq_ok_iff.2 ⟨hx, hy⟩⟩

theorem Meets.within (ha : Meets a describes faulty) (step : Step) :
    Meets (within step a) describes fun f =>
      ∃ g, faulty g ∧ f = ⟨step :: g.place, g.defect⟩ where
  ok_iff x := by rw [within_eq_ok_iff, ha.ok_iff]
  mem_faults_iff f := by
    simp only [faults_within, List.mem_map, ha.mem_faults_iff, eq_comm]
  pairwise := by
    rw [faults_within, List.pairwise_map]
    exact ha.pairwise.imp Fault.before_cons
  exists_ok h := by
    rw [faults_within, List.map_eq_nil_iff] at h
    obtain ⟨x, hx⟩ := ha.exists_ok h
    exact ⟨x, within_eq_ok_iff.2 hx⟩

theorem Meets.map (ha : Meets a describes faulty) (e : α → β) :
    Meets (a.map e) (fun y => ∃ x, describes x ∧ e x = y) faulty where
  ok_iff y := by
    rw [map_eq_ok_iff]
    exact exists_congr fun x => and_congr_left fun _ => ha.ok_iff x
  mem_faults_iff f := by rw [faults_map, ha.mem_faults_iff]
  pairwise := by
    rw [faults_map]
    exact ha.pairwise
  exists_ok h := by
    rw [faults_map] at h
    obtain ⟨x, hx⟩ := ha.exists_ok h
    exact ⟨e x, map_eq_ok_iff.2 ⟨x, hx, rfl⟩⟩

theorem Meets.congr {describes' : α → Prop} (ha : Meets a describes faulty)
    (hdescribes : ∀ x, describes x ↔ describes' x) (hfaulty : ∀ f, faulty f ↔ faulty' f) :
    Meets a describes' faulty' := by
  rwa [← funext fun x => propext (hdescribes x), ← funext fun f => propext (hfaulty f)]

end

/-- The items are read one by one, and each fault lies in the item with its index. -/
theorem meets_items {read : Json → Checked α} {describes : Json → α → Prop}
    {faulty : Json → Fault → Prop} (h : ∀ j, Meets (read j) (describes j) (faulty j))
    (start : Nat) (js : List Json) :
    Meets (items read start js) (List.Forall₂ describes js) fun f =>
      ∃ index j g, js[index]? = some j ∧ faulty j g ∧
        f = ⟨.item (start + index) :: g.place, g.defect⟩ := by
  induction js generalizing start with
  | nil => exact meets_ok (fun xs => List.forall₂_nil_left_iff) (by simp)
  | cons j js ih =>
    refine ((((h j).within (.item start)).both (ih (start + 1)) ?_).map _).congr ?_ ?_
    · intro f g hf hg
      obtain ⟨f, -, rfl⟩ := hf
      obtain ⟨index, j', g, -, -, rfl⟩ := hg
      refine Fault.before_of_rank_lt ?_
      simp only [Step.rank]
      omega
    · intro xs
      rw [List.forall₂_cons_left_iff]
      constructor
      · intro h
        obtain ⟨⟨x, xs⟩, ⟨hx, hxs⟩, rfl⟩ := h
        exact ⟨x, xs, hx, hxs, rfl⟩
      · intro h
        obtain ⟨x, xs, hx, hxs, rfl⟩ := h
        exact ⟨(x, xs), ⟨hx, hxs⟩, rfl⟩
    · intro f
      constructor
      · intro h
        rcases h with ⟨g, hg, rfl⟩ | ⟨index, j', g, hj, hg, rfl⟩
        · exact ⟨0, j, g, rfl, hg, rfl⟩
        · exact ⟨index + 1, j', g, hj, hg, by simp only [Nat.succ_add_eq_add_succ]⟩
      · intro h
        obtain ⟨index, j', g, hj, hg, rfl⟩ := h
        cases index with
        | zero =>
          obtain rfl := Option.some.inj hj
          exact Or.inl ⟨g, hg, rfl⟩
        | succ index => exact Or.inr ⟨index, j', g, hj, hg, by simp only [Nat.succ_add_eq_add_succ]⟩

end Checked

end FlowDiagram.Payload
