import FlowDiagram.Proofs.Graph.Fault

/-!
# What a schema accepts

For every schema there are the values that it accepts, with what is read from them, and the faults
that any other value has. A validator that keeps to its documentation reads exactly that, whatever
the schema, as long as the fields of each model come in the order of their declaration.
-/

namespace FlowDiagram.Payload
open FlowDiagram.Text

variable {α β : Type}

/-! ### Accepted values -/

/-- What is read for a field: from its entry, or else by default. -/
def EntryAccepts (accepts : Json → α → Prop) (default? : Option α) (entry : Option (Text × Json))
    (x : α) : Prop :=
  match entry with
  | some (_, j) => accepts j x
  | none => default? = some x

mutual

/-- The value is one that the schema declares, and this is read from it. -/
def Schema.Accepts : {α : Type} → Schema α → Json → α → Prop
  | _, .text minLength, j, t =>
    j = .text t ∧ minLength ≤ t.length ∧ (minLength ≠ 0 → IsUnicode t)
  | _, .oneOf _, j, name => j = .text name.val ∧ IsUnicode name.val
  | _, .optional schema, j, x? =>
    (j = .null ∧ x? = none) ∨ (j ≠ .null ∧ ∃ x, schema.Accepts j x ∧ some x = x?)
  | _, .list item, j, xs => ∃ js, j = .array js ∧ List.Forall₂ item.Accepts js xs
  | _, .before change schema, j, x => schema.Accepts (change j) x
  | _, .model _ byName fields, j, x => ∃ given, j = .object given ∧ fields.Accepts byName given x

def Fields.Accepts :
    {α : Type} → Fields α → (byName : Bool) → List (Text × Json) → α → Prop
  | _, .none, _, _, _ => True
  | _, .and name alias? default? schema rest, byName, given, (x, y) =>
    EntryAccepts schema.Accepts default? (entryOf? byName name alias? given) x ∧
      rest.Accepts byName given y

end

/-! ### Faults -/

/-- The faults of a field are those of its entry, told with the key that it has there, or that it
has neither entry nor default. -/
def EntryFaulty (faulty : Json → Fault → Prop) (default? : Option α) (key : Text)
    (entry : Option (Text × Json)) (f : Fault) : Prop :=
  match entry with
  | some (used, j) => ∃ g, faulty j g ∧ f = ⟨.field used :: g.place, g.defect⟩
  | none => default? = none ∧ f = ⟨[.field key], .missing⟩

mutual

/-- The value has this fault as one of the schema. -/
def Schema.Faulty : {α : Type} → Schema α → Json → Fault → Prop
  | _, .text minLength, j, f =>
    ((∀ t, j ≠ .text t) ∧ f = ⟨[], .notText⟩) ∨
      ∃ t, j = .text t ∧
        ((minLength ≠ 0 ∧ ¬ IsUnicode t ∧ f = ⟨[], .notUnicode⟩) ∨
          (IsUnicode t ∧ t.length < minLength ∧ f = ⟨[], .tooShort minLength⟩))
  | _, .oneOf names, j, f =>
    (∃ t, j = .text t ∧ ¬ IsUnicode t ∧ f = ⟨[], .notUnicode⟩) ∨
      ((∀ t, j = .text t → IsUnicode t ∧ t ∉ names) ∧ f = ⟨[], .notNamed names⟩)
  | _, .optional schema, j, f => j ≠ .null ∧ schema.Faulty j f
  | _, .list item, j, f =>
    ((∀ js, j ≠ .array js) ∧ f = ⟨[], .notList⟩) ∨
      ∃ js index i g, j = .array js ∧ js[index]? = some i ∧ item.Faulty i g ∧
        f = ⟨.item index :: g.place, g.defect⟩
  | _, .before change schema, j, f => schema.Faulty (change j) f
  | _, .model title byName fields, j, f =>
    ((∀ given, j ≠ .object given) ∧ f = ⟨[], .notModel title⟩) ∨
      ∃ given, j = .object given ∧ fields.Faulty byName given f

def Fields.Faulty :
    {α : Type} → Fields α → (byName : Bool) → List (Text × Json) → Fault → Prop
  | _, .none, _, _, _ => False
  | _, .and name alias? default? schema rest, byName, given, f =>
    EntryFaulty schema.Faulty default? (alias?.getD name) (entryOf? byName name alias? given) f ∨
      rest.Faulty byName given f

end

theorem Schema.faulty_object_iff {title : Text} {byName : Bool} {fields : Fields α}
    {given : List (Text × Json)} {f : Fault} :
    (Schema.model title byName fields).Faulty (.object given) f ↔ fields.Faulty byName given f := by
  simp [Schema.Faulty]

/-! ### The order of fields -/

/-- The keys under which fields are looked for. -/
def Fields.keys : {α : Type} → Fields α → List Text
  | _, .none => []
  | _, .and name alias? _ _ rest => alias?.getD name :: name :: rest.keys

mutual

/-- The keys of each field have lower ranks than those of the fields after it. -/
def Schema.Ordered : {α : Type} → Schema α → Prop
  | _, .text _ => True
  | _, .oneOf _ => True
  | _, .optional schema => schema.Ordered
  | _, .list item => item.Ordered
  | _, .before _ schema => schema.Ordered
  | _, .model _ _ fields => fields.Ordered

def Fields.Ordered : {α : Type} → Fields α → Prop
  | _, .none => True
  | _, .and name alias? _ schema rest =>
    schema.Ordered ∧ rest.Ordered ∧
      ∀ key ∈ [alias?.getD name, name], ∀ other ∈ rest.keys,
        (Step.field key).rank < (Step.field other).rank

end

theorem key_mem_of_entryOf? {byName : Bool} {name key : Text} {alias? : Option Text}
    {given : List (Text × Json)} {j : Json}
    (h : entryOf? byName name alias? given = some (key, j)) : key ∈ [alias?.getD name, name] := by
  unfold entryOf? at h
  split at h
  · obtain ⟨rfl, -⟩ := Prod.mk.inj (Option.some.inj h)
    exact List.mem_cons_self
  · split at h
    · obtain ⟨_, -, hkey⟩ := Option.map_eq_some_iff.1 h
      obtain ⟨rfl, -⟩ := Prod.mk.inj hkey
      exact List.mem_cons_of_mem _ List.mem_cons_self
    · exact absurd h (by simp)

theorem Fields.under_of_faulty : {α : Type} → (fields : Fields α) → {byName : Bool} →
    {given : List (Text × Json)} → {f : Fault} → fields.Faulty byName given f → f.Under fields.keys
  | _, .none, _, _, _, h => h.elim
  | _, .and name alias? default? schema rest, byName, given, f, h => by
    rcases h with h | h
    · have hkeys : [alias?.getD name, name] ⊆ (Fields.and name alias? default? schema rest).keys :=
        List.subset_append_left _ rest.keys
      cases hentry : entryOf? byName name alias? given with
      | some entry =>
        rw [hentry] at h
        obtain ⟨g, -, rfl⟩ := h
        exact ⟨entry.1, hkeys (key_mem_of_entryOf? hentry), g.place, rfl⟩
      | none =>
        rw [hentry] at h
        obtain ⟨-, rfl⟩ := h
        exact ⟨alias?.getD name, hkeys List.mem_cons_self, [], rfl⟩
    · obtain ⟨key, hkey, place, hplace⟩ := rest.under_of_faulty h
      exact ⟨key, List.mem_cons_of_mem _ (List.mem_cons_of_mem _ hkey), place, hplace⟩

/-! ### What a validator reads -/

namespace Validator
variable {v : Validator}

theorem Documented.meets_text (hv : v.Documented) (minLength : Nat) (j : Json) :
    (v.validate (.text minLength) j).Meets ((Schema.text minLength).Accepts j)
      ((Schema.text minLength).Faulty j) := by
  by_cases htext : ∃ t, j = .text t
  · obtain ⟨t, rfl⟩ := htext
    by_cases hunicode : IsUnicode t
    · by_cases hlength : minLength ≤ t.length
      · rw [hv.text_long hunicode hlength]
        exact Checked.meets_ok (by simp_all [Schema.Accepts, eq_comm]) (by simp_all [Schema.Faulty])
      · rw [hv.text_short hunicode (by omega)]
        exact Checked.meets_fault (by simp_all [Schema.Accepts]) (by simp_all [Schema.Faulty])
    · by_cases hbound : minLength = 0
      · subst hbound
        rw [hv.text_unbounded]
        exact Checked.meets_ok (by simp_all [Schema.Accepts, eq_comm]) (by simp_all [Schema.Faulty])
      · rw [hv.text_notUnicode hbound hunicode]
        exact Checked.meets_fault (by simp_all [Schema.Accepts]) (by simp_all [Schema.Faulty])
  · rw [hv.text_other (not_exists.1 htext)]
    exact Checked.meets_fault (fun t h => htext ⟨t, h.1⟩) (by simp_all [Schema.Faulty])

theorem Documented.meets_oneOf (hv : v.Documented) (names : List Text) (j : Json) :
    (v.validate (.oneOf names) j).Meets ((Schema.oneOf names).Accepts j)
      ((Schema.oneOf names).Faulty j) := by
  by_cases htext : ∃ t, j = .text t
  · obtain ⟨t, rfl⟩ := htext
    by_cases hunicode : IsUnicode t
    · by_cases hnames : t ∈ names
      · rw [hv.oneOf_known hunicode hnames]
        refine Checked.meets_ok (fun name => ?_) (by simp_all [Schema.Faulty])
        constructor
        · intro h
          exact Subtype.ext (Json.text.inj h.1).symm
        · intro h
          rw [h]
          exact ⟨rfl, hunicode⟩
      · rw [hv.oneOf_unknown hunicode hnames]
        exact Checked.meets_fault (fun name h => hnames (Json.text.inj h.1 ▸ name.property))
          (by simp_all [Schema.Faulty])
    · rw [hv.oneOf_notUnicode hunicode]
      exact Checked.meets_fault (fun name h => hunicode (Json.text.inj h.1 ▸ h.2))
        (by simp_all [Schema.Faulty])
  · rw [hv.oneOf_other (not_exists.1 htext)]
    exact Checked.meets_fault (fun name h => htext ⟨name.val, h.1⟩) (by simp_all [Schema.Faulty])

theorem Documented.meets_optional (hv : v.Documented) {schema : Schema α}
    (h : ∀ j, (v.validate schema j).Meets (schema.Accepts j) (schema.Faulty j)) (j : Json) :
    (v.validate (.optional schema) j).Meets (schema.optional.Accepts j)
      (schema.optional.Faulty j) := by
  by_cases hnull : j = .null
  · rw [hnull, hv.optional_null]
    exact Checked.meets_ok (by simp [Schema.Accepts]) (by simp [Schema.Faulty])
  · rw [hv.optional_other hnull]
    exact ((h j).map some).congr (by simp [Schema.Accepts, hnull]) (by simp [Schema.Faulty, hnull])

theorem Documented.meets_list (hv : v.Documented) {item : Schema α}
    (h : ∀ j, (v.validate item j).Meets (item.Accepts j) (item.Faulty j)) (j : Json) :
    (v.validate (.list item) j).Meets (item.list.Accepts j) (item.list.Faulty j) := by
  by_cases harray : ∃ js, j = .array js
  · obtain ⟨js, rfl⟩ := harray
    rw [hv.list_array]
    refine (Checked.meets_items h 0 js).congr (by simp [Schema.Accepts]) fun f => ?_
    constructor
    · intro hf
      obtain ⟨index, i, g, hi, hg, rfl⟩ := hf
      exact Or.inr ⟨js, index, i, g, rfl, hi, hg, by rw [Nat.zero_add]⟩
    · intro hf
      rcases hf with ⟨hnot, -⟩ | ⟨_, index, i, g, heq, hi, hg, rfl⟩
      · exact absurd rfl (hnot js)
      · obtain rfl := Json.array.inj heq
        exact ⟨index, i, g, hi, hg, by rw [Nat.zero_add]⟩
  · rw [hv.list_other (not_exists.1 harray)]
    exact Checked.meets_fault (fun _ h => harray ⟨_, h.choose_spec.1⟩)
      (by simp_all [Schema.Faulty])

theorem Documented.meets_model (hv : v.Documented) {title : Text} {byName : Bool}
    {fields : Fields α}
    (h : ∀ given, (v.validate (.model title byName fields) (.object given)).Meets
      (fields.Accepts byName given) (fields.Faulty byName given)) (j : Json) :
    (v.validate (.model title byName fields) j).Meets
      ((Schema.model title byName fields).Accepts j)
      ((Schema.model title byName fields).Faulty j) := by
  by_cases hobject : ∃ given, j = .object given
  · obtain ⟨given, rfl⟩ := hobject
    exact (h given).congr (by simp [Schema.Accepts]) fun _ => Schema.faulty_object_iff.symm
  · rw [hv.model_other (not_exists.1 hobject)]
    exact Checked.meets_fault (fun _ h => hobject ⟨_, h.choose_spec.1⟩)
      (by simp_all [Schema.Faulty])

/-- What is read for the first field of a model goes before what is read for the rest. -/
theorem Documented.meets_and (hv : v.Documented) {title : Text} {byName : Bool} {name : Text}
    {alias? : Option Text} {default? : Option α} {schema : Schema α} {rest : Fields β}
    {given : List (Text × Json)}
    (h : ∀ j, (v.validate schema j).Meets (schema.Accepts j) (schema.Faulty j))
    (hrest : (v.validate (.model title byName rest) (.object given)).Meets
      (rest.Accepts byName given) (rest.Faulty byName given))
    (hordered : (Fields.and name alias? default? schema rest).Ordered) :
    (v.validate (.model title byName (.and name alias? default? schema rest)) (.object given)).Meets
      ((Fields.and name alias? default? schema rest).Accepts byName given)
      ((Fields.and name alias? default? schema rest).Faulty byName given) := by
  have hbefore : ∀ key ∈ [alias?.getD name, name], ∀ place defect g,
      rest.Faulty byName given g → Fault.Before ⟨.field key :: place, defect⟩ g :=
    fun key hkey place defect g hg =>
      Fault.Under.before ⟨key, List.mem_singleton_self key, place, rfl⟩ (rest.under_of_faulty hg)
        fun k hk => List.mem_singleton.1 hk ▸ hordered.2.2 key hkey
  cases hentry : entryOf? byName name alias? given with
  | some entry =>
    obtain ⟨key, j⟩ := entry
    rw [hv.model_given hentry]
    refine (((h j).within (.field key)).both hrest ?_).congr ?_ ?_
    · intro f g hf hg
      obtain ⟨f, -, rfl⟩ := hf
      exact hbefore key (key_mem_of_entryOf? hentry) f.place f.defect g hg
    · simp [Fields.Accepts, EntryAccepts, hentry]
    · simp [Fields.Faulty, EntryFaulty, hentry]
  | none =>
    cases default? with
    | some default =>
      have hdefault : Checked.Meets (.ok default) (some default = some ·) fun _ => False :=
        Checked.meets_ok (by simp [eq_comm]) (by simp)
      rw [hv.model_default hentry]
      refine (hdefault.both hrest ?_).congr ?_ ?_
      · intro f g hf
        exact hf.elim
      · simp [Fields.Accepts, EntryAccepts, hentry]
      · simp [Fields.Faulty, EntryFaulty, hentry]
    | none =>
      have hmissing : Checked.Meets (.fault [.field (alias?.getD name)] .missing)
          (fun _ : α => False) (· = ⟨[.field (alias?.getD name)], .missing⟩) :=
        Checked.meets_fault (by simp) fun _ => Iff.rfl
      rw [hv.model_missing hentry]
      refine (hmissing.both hrest ?_).congr ?_ ?_
      · intro f g hf
        rw [hf]
        exact hbefore _ List.mem_cons_self [] .missing g
      · simp [Fields.Accepts, EntryAccepts, hentry]
      · simp [Fields.Faulty, EntryFaulty, hentry]

end Validator

mutual

/-- A validator reads by a schema what the schema accepts, or else finds all its faults in order. -/
theorem Schema.meets_validate {v : Validator} (hv : v.Documented) : {α : Type} →
    (schema : Schema α) → schema.Ordered → (j : Json) →
      (v.validate schema j).Meets (schema.Accepts j) (schema.Faulty j)
  | _, .text minLength, _, j => hv.meets_text minLength j
  | _, .oneOf names, _, j => hv.meets_oneOf names j
  | _, .optional schema, h, j => hv.meets_optional (schema.meets_validate hv h) j
  | _, .list item, h, j => hv.meets_list (item.meets_validate hv h) j
  | _, .before change schema, h, j => by
    rw [hv.before]
    exact schema.meets_validate hv h (change j)
  | _, .model title _ fields, h, j => hv.meets_model (fields.meets_validate hv title h) j

theorem Fields.meets_validate {v : Validator} (hv : v.Documented) (title : Text)
    {byName : Bool} : {α : Type} → (fields : Fields α) → fields.Ordered →
      (given : List (Text × Json)) →
        (v.validate (.model title byName fields) (.object given)).Meets
          (fields.Accepts byName given) (fields.Faulty byName given)
  | _, .none, _, given => by
    rw [hv.model_none]
    exact Checked.meets_ok (by simp [Fields.Accepts]) (by simp [Fields.Faulty])
  | _, .and _ _ _ schema rest, h, given =>
    hv.meets_and (schema.meets_validate hv h.1) (rest.meets_validate hv title h.2.1 given) h

end

/-! ### The standard validator -/

end FlowDiagram.Payload
