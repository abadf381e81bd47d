import FlowDiagram.Graph.Basic
import FlowDiagram.Proofs.Graph.Names
import Mathlib.Data.List.Dedup

/-!
# Asking for names one after the other

Ids come one by one and may come again. Each is answered with the name that it has from then on, so
the answers are the names that the ids have in the end. A new id gets the first candidate that is
not in use, and ids that are names already keep them as long as no others come.
-/

namespace FlowDiagram.NameTable
open FlowDiagram.Text

/-! ### Answers -/

/-- The name of an id, and the table in which the id has it. -/
def get (table : NameTable) (id : Option Text) : Text × NameTable :=
  ((table.add (idKey id)).nameOf (idKey id), table.add (idKey id))

/-- The names that ids get which come one after the other. -/
def answers : NameTable → List (Option Text) → List Text
  | _, [] => []
  | table, id :: ids => (table.get id).1 :: answers (table.get id).2 ids

theorem mem_taken_add {table : NameTable} {id name : Text} :
    name ∈ (table.add id).taken ↔ name ∈ table.taken ∨ name = (table.add id).nameOf id := by
  cases h : table.nameOf? id with
  | none =>
    rw [nameOf_of_some (nameOf?_add_of_none h)]
    simp [taken, entries_add_of_none h]
  | some held =>
    rw [add_of_some h, nameOf_of_some h]
    constructor
    · exact Or.inl
    · rintro (hname | rfl)
      · exact hname
      · exact mem_taken_of_nameOf? h

/-- A name once given stays. -/
theorem nameOf_foldl_add (table : NameTable) (id : Text) (ids : List Text) :
    (ids.foldl add (table.add id)).nameOf id = (table.add id).nameOf id := by
  obtain ⟨name, hname⟩ := Option.isSome_iff_exists.1 (isSome_nameOf?_add table id)
  rw [nameOf_of_some hname, nameOf_of_some (nameOf?_foldl_of_some hname ids)]

theorem nameOf?_foldl_of_notMem (table : NameTable) {id : Text} {ids : List Text} (h : id ∉ ids) :
    (ids.foldl add table).nameOf? id = table.nameOf? id := by
  induction ids generalizing table with
  | nil => rfl
  | cons other ids ih =>
    rw [List.mem_cons, not_or] at h
    rw [List.foldl_cons, ih (table.add other) h.2, nameOf?_add_of_ne h.1]

theorem answers_append (table : NameTable) (before after : List (Option Text)) :
    table.answers (before ++ after) =
      table.answers before ++ ((before.map idKey).foldl add table).answers after := by
  induction before generalizing table with
  | nil => rfl
  | cons id before ih =>
    rw [List.cons_append, answers, answers, ih]
    rfl

/-- The names in use are those that were in use and the answers. -/
theorem mem_taken_foldl {table : NameTable} {ids : List (Option Text)} {name : Text} :
    name ∈ ((ids.map idKey).foldl add table).taken ↔
      name ∈ table.taken ∨ name ∈ table.answers ids := by
  induction ids generalizing table with
  | nil => simp [answers]
  | cons id ids ih =>
    have hanswer : (table.get id).1 = (table.add (idKey id)).nameOf (idKey id) := rfl
    rw [List.map_cons, List.foldl_cons, ih, mem_taken_add, answers, List.mem_cons, hanswer,
      or_assoc]
    rfl

theorem answers_eq_map (table : NameTable) (ids : List (Option Text)) :
    table.answers ids =
      ids.map fun id => ((ids.map idKey).foldl add table).nameOf (idKey id) := by
  induction ids generalizing table with
  | nil => rfl
  | cons id ids ih =>
    have hhead : (table.get id).1 =
        ((ids.map idKey).foldl add (table.add (idKey id))).nameOf (idKey id) :=
      (nameOf_foldl_add table (idKey id) (ids.map idKey)).symm
    rw [answers, hhead, ih, List.map_cons, List.map_cons, List.foldl_cons]
    rfl

/-- The answers of an empty table are the names of the ids. -/
theorem answers_empty (ids : List (Option Text)) :
    empty.answers ids = namesOf (ids.map idKey) := by
  rw [answers_eq_map, namesOf, List.map_map]
  rfl

/-! ### Ids and their answers -/

theorem answer_eq_iff {ids : List (Option Text)} {call other : Option Text × Text}
    (hcall : call ∈ ids.zip (empty.answers ids)) (hother : other ∈ ids.zip (empty.answers ids)) :
    call.2 = other.2 ↔ idKey call.1 = idKey other.1 := by
  have hzip : ids.zip (empty.answers ids) =
      ids.map fun id => (id, (ofIds (ids.map idKey)).nameOf (idKey id)) := by
    have hpairs := List.zip_map' (f := id)
      (g := fun id => (ofIds (ids.map idKey)).nameOf (idKey id)) (l := ids)
    rw [List.map_id] at hpairs
    rw [answers_eq_map]
    exact hpairs
  rw [hzip] at hcall hother
  obtain ⟨id, hid, rfl⟩ := List.mem_map.1 hcall
  obtain ⟨id', hid', rfl⟩ := List.mem_map.1 hother
  constructor
  · exact nameOf_injOn (ids.map idKey) (List.mem_map_of_mem hid) (List.mem_map_of_mem hid')
  · exact congrArg (ofIds (ids.map idKey)).nameOf

theorem isName_answer {ids : List (Option Text)} {name : Text} (h : name ∈ empty.answers ids) :
    IsName name := by
  rw [answers_eq_map] at h
  obtain ⟨id, -, rfl⟩ := List.mem_map.1 h
  exact isName_nameOf (ids.map idKey) (idKey id)

/-- A new id is answered with the first candidate that is no answer yet. -/
theorem exists_answer_eq {before : List (Option Text)} {id : Option Text}
    (h : idKey id ∉ before.map idKey) :
    ∃ k, k ≤ (empty.answers before).dedup.length ∧
      empty.answers (before ++ [id]) =
        empty.answers before ++ [candidate (baseName (idKey id)) k] ∧
      candidate (baseName (idKey id)) k ∉ empty.answers before ∧
      ∀ j, j < k → candidate (baseName (idKey id)) j ∈ empty.answers before := by
  have hnone : (ofIds (before.map idKey)).nameOf? (idKey id) = none :=
    nameOf?_foldl_of_notMem empty h
  have htaken : ∀ name, name ∈ (ofIds (before.map idKey)).taken ↔ name ∈ empty.answers before := by
    intro name
    exact mem_taken_foldl.trans (or_iff_right (List.not_mem_nil))
  obtain ⟨k, hk, heq, hfree, hbelow⟩ := (ofIds (before.map idKey)).exists_freshName_eq (idKey id)
  -- The names in use are all different, so there are no more of them than different answers.
  have hlen : (ofIds (before.map idKey)).taken.length ≤ (empty.answers before).dedup.length := by
    refine (sound_ofIds (before.map idKey)).nodup.length_le_of_subset ?_
    intro name hname
    exact List.mem_dedup.2 ((htaken name).1 hname)
  refine ⟨k, hk.trans hlen, ?_, ?_, ?_⟩
  · rw [answers_append, ← heq, ← nameOf_of_some (nameOf?_add_of_none hnone)]
    rfl
  · rwa [← htaken]
  · intro j hj
    exact (htaken _).1 (hbelow j hj)

/-! ### Ids that are names already -/

/-- Every id of the table is its own name. -/
def Verbatim (table : NameTable) : Prop := ∀ entry ∈ table.entries, entry.2 = entry.1

theorem baseName_of_isName {id : Text} (h : IsName id) : baseName id = id := by
  have hne : id.isEmpty = false := by simpa using h.ne_nil
  rw [baseName, hne]
  conv_rhs => rw [← List.map_id id]
  exact List.map_congr_left fun c hc => if_pos (h.isWord c hc)

section
variable {table : NameTable} {id : Text}

theorem Verbatim.nameOf_add (h : Verbatim table) (hid : IsName id) :
    (table.add id).nameOf id = id := by
  cases hold : table.nameOf? id with
  | some name =>
    rw [add_of_some hold, nameOf_of_some hold]
    exact h _ (mem_entries_of_nameOf? hold)
  | none =>
    rw [nameOf_of_some (nameOf?_add_of_none hold)]
    obtain ⟨k, -, heq, -, hbelow⟩ := table.exists_freshName_eq id
    rw [baseName_of_isName hid] at heq hbelow
    cases k with
    | zero => exact heq
    | succ k =>
      -- The id itself would be in use, so it would have a name.
      obtain ⟨⟨key, name⟩, hentry, hname⟩ := List.mem_map.1 (hbelow 0 k.succ_pos)
      have hkey : key = id := (h _ hentry).symm.trans hname
      rw [nameOf?, List.lookup_eq_none_iff] at hold
      exact absurd hkey.symm (by simpa using hold _ hentry)

theorem Verbatim.add (h : Verbatim table) (hid : IsName id) : Verbatim (table.add id) := by
  intro entry hentry
  cases hold : table.nameOf? id with
  | some name =>
    rw [add_of_some hold] at hentry
    exact h entry hentry
  | none =>
    rw [entries_add_of_none hold, List.mem_append, List.mem_singleton] at hentry
    rcases hentry with hentry | rfl
    · exact h entry hentry
    · exact (nameOf_of_some (nameOf?_add_of_none hold)).symm.trans (h.nameOf_add hid)

theorem Verbatim.answers_eq (h : Verbatim table) {ids : List (Option Text)}
    (hids : ∀ id ∈ ids, IsName (idKey id)) : table.answers ids = ids.map idKey := by
  induction ids generalizing table with
  | nil => rfl
  | cons id ids ih =>
    rw [List.forall_mem_cons] at hids
    have hhead : (table.get id).1 = idKey id := h.nameOf_add hids.1
    rw [answers, hhead, List.map_cons]
    exact congrArg _ (ih (h.add hids.1) hids.2)

end

/-! ### Every run -/

/-- Ids that come one after the other are told apart by their answers and by nothing else, and every
answer may stand in code. A new id is answered with the first of its candidates that is no answer
yet, and of one more candidates than there are answers one is free. Ids that are names already are
answered with themselves. -/
theorem answers_consistent (ids : List (Option Text)) :
    empty.answers ids = namesOf (ids.map idKey) ∧
      (∀ call ∈ ids.zip (empty.answers ids), ∀ other ∈ ids.zip (empty.answers ids),
        call.2 = other.2 ↔ idKey call.1 = idKey other.1) ∧
      (∀ name ∈ empty.answers ids, IsName name) ∧
      (∀ before id, before ++ [id] <+: ids → idKey id ∉ before.map idKey →
        ∃ k, k ≤ (empty.answers before).dedup.length ∧
          empty.answers before ++ [candidate (baseName (idKey id)) k] <+: empty.answers ids ∧
          candidate (baseName (idKey id)) k ∉ empty.answers before ∧
          ∀ j, j < k → candidate (baseName (idKey id)) j ∈ empty.answers before) ∧
      ((∀ id ∈ ids, IsName (idKey id)) → empty.answers ids = ids.map idKey) := by
  refine ⟨answers_empty ids, fun call hcall other hother => answer_eq_iff hcall hother,
    fun name hname => isName_answer hname, ?_, ?_⟩
  · rintro before id ⟨after, rfl⟩ hnew
    obtain ⟨k, hk, heq, hfree, hbelow⟩ := exists_answer_eq hnew
    refine ⟨k, hk, ?_, hfree, hbelow⟩
    rw [answers_append, heq]
    exact List.prefix_append _ _
  · have hempty : Verbatim empty := List.forall_mem_nil _
    exact hempty.answers_eq

/-- The third id is the name that the second one has. -/
example : empty.answers [some "a b", some "a-b", some "a_b_2", none, some "a b"] =
    ["a_b", "a_b_2", "a_b_2_2", "node", "a_b"] := by
  decide +kernel

end FlowDiagram.NameTable
