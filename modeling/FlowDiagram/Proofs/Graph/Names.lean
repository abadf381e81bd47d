import FlowDiagram.Graph.Names
import Mathlib.Data.List.Nodup
import Mathlib.Data.Set.Function

/-!
# Names are safe and distinct

The candidates for a base are all different, so that of one more candidates than there are names in
use one is free: a fresh name is never in use. A table that is built from ids therefore keeps its
names apart and gives every id of the list a name, and every name is a word.
-/

namespace FlowDiagram
open FlowDiagram.Text

/-- A text that may stand as an id in code: word characters, and at least one. -/
structure IsName (t : Text) : Prop where
  ne_nil : t ≠ []
  isWord : ∀ c ∈ t, isWord c = true

/-! ### Numbers -/

theorem Text.ofNat_injective : Function.Injective Text.ofNat := by
  intro m n h
  have hmap : (Nat.toDigits 10 m).map CodePoint.ofChar = (Nat.toDigits 10 n).map CodePoint.ofChar :=
    h
  have hdigits : Nat.toDigits 10 m = Nat.toDigits 10 n :=
    List.map_injective_iff.2 (fun _ _ => CodePoint.ofChar_inj.1) hmap
  have hread := congrArg (fun digits => Nat.ofDigitChars 10 digits 0) hdigits
  simpa using hread

theorem Text.isWord_of_mem_ofNat {n : Nat} {c : CodePoint} (h : c ∈ Text.ofNat n) :
    isWord c = true := by
  obtain ⟨d, hd, rfl⟩ := List.mem_map.1 h
  have hdigit : d.isDigit = true := Nat.isDigit_of_mem_toDigits (by decide) (by decide) hd
  have hpoints : ∀ n ∈ List.range' 48 10, CodeRanges.covers alphanumericRanges n = true := by
    decide +kernel
  have hmem : d.toNat ∈ List.range' 48 10 := by
    rw [List.mem_range'_1]
    simp only [Char.isDigit, Bool.and_eq_true, decide_eq_true_eq] at hdigit
    exact ⟨hdigit.1, Nat.lt_succ_of_le hdigit.2⟩
  have hcovers : isAlphanumeric (CodePoint.ofChar d) = true := hpoints _ hmem
  simp [Text.isWord, hcovers]

namespace NameTable

/-! ### Candidates -/

theorem candidate_succ_ne (base : Text) (k : Nat) : candidate base (k + 1) ≠ base := by
  intro h
  have hlen := congrArg List.length h
  have hmark : (Text.ofString "_").length = 1 := rfl
  simp only [candidate, List.length_append, hmark] at hlen
  omega

theorem candidate_injective (base : Text) : Function.Injective (candidate base) := by
  intro j k h
  cases j with
  | zero =>
    cases k with
    | zero => rfl
    | succ k => exact absurd h.symm (candidate_succ_ne base k)
  | succ j =>
    cases k with
    | zero => exact absurd h (candidate_succ_ne base j)
    | succ k =>
      have hnum : Text.ofNat (j + 2) = Text.ofNat (k + 2) := by simpa [candidate] using h
      have := Text.ofNat_injective hnum
      omega

theorem isName_baseName (id : Text) : IsName (baseName id) := by
  unfold baseName
  split
  · exact ⟨by decide, by decide⟩
  · rename_i hne
    refine ⟨by simpa using hne, ?_⟩
    intro c hc
    obtain ⟨d, -, rfl⟩ := List.mem_map.1 hc
    by_cases hd : Text.isWord d = true
    · rw [if_pos hd]
      exact hd
    · rw [if_neg hd]
      exact isWord_underscore

theorem isName_candidate {base : Text} (h : IsName base) (k : Nat) :
    IsName (candidate base k) := by
  cases k with
  | zero => exact h
  | succ k =>
    have hne : candidate base (k + 1) ≠ [] := by
      intro hnil
      simp only [candidate, List.append_eq_nil_iff] at hnil
      exact h.ne_nil hnil.1.1
    refine ⟨hne, ?_⟩
    intro c hc
    simp only [candidate, List.mem_append] at hc
    rcases hc with (hc | hc) | hc
    · exact h.isWord c hc
    · obtain rfl : c = '_' := by simpa [Text.ofString] using hc
      exact isWord_underscore
    · exact Text.isWord_of_mem_ofNat hc

theorem exists_candidate_notMem (taken : List Text) (base : Text) :
    ∃ k, k ≤ taken.length ∧ candidate base k ∉ taken := by
  by_contra hnone
  have hall : ∀ k, k ≤ taken.length → candidate base k ∈ taken := by
    intro k hk
    by_contra hfree
    exact hnone ⟨k, hk, hfree⟩
  have hsub : (List.range (taken.length + 1)).map (candidate base) ⊆ taken := by
    intro t ht
    obtain ⟨k, hk, rfl⟩ := List.mem_map.1 ht
    exact hall k (Nat.le_of_lt_succ (List.mem_range.1 hk))
  have hnodup : ((List.range (taken.length + 1)).map (candidate base)).Nodup :=
    List.nodup_range.map (candidate_injective base)
  have hle := hnodup.length_le_of_subset hsub
  rw [List.length_map, List.length_range] at hle
  omega

/-- With enough tries the search ends at the first free candidate. -/
theorem exists_firstFree_eq {taken : List Text} {base : Text} (tries : Nat) {k : Nat}
    (h : ∃ j, k ≤ j ∧ j ≤ k + tries ∧ candidate base j ∉ taken) :
    ∃ j, k ≤ j ∧ j ≤ k + tries ∧ firstFree taken base tries k = candidate base j ∧
      candidate base j ∉ taken ∧ ∀ i, k ≤ i → i < j → candidate base i ∈ taken := by
  induction tries generalizing k with
  | zero =>
    obtain ⟨j, hkj, hjk, hfree⟩ := h
    obtain rfl : j = k := by omega
    exact ⟨j, le_rfl, le_rfl, rfl, hfree, fun i hi hlt => absurd hi (Nat.not_le.2 hlt)⟩
  | succ tries ih =>
    unfold firstFree
    split
    · rename_i hk
      have htaken : candidate base k ∈ taken := List.contains_iff_mem.1 hk
      obtain ⟨j, hkj, hjk, hfree⟩ := h
      have hne : j ≠ k := by
        intro heq
        subst heq
        exact hfree htaken
      obtain ⟨m, hkm, hmk, hm, hmfree, hbelow⟩ :=
        ih (k := k + 1) ⟨j, by omega, by omega, hfree⟩
      refine ⟨m, by omega, by omega, hm, hmfree, fun i hi hlt => ?_⟩
      rcases Nat.eq_or_lt_of_le hi with rfl | hi
      · exact htaken
      · exact hbelow i hi hlt
    · rename_i hk
      exact ⟨k, le_rfl, by omega, rfl, by simpa using hk,
        fun i hi hlt => absurd hi (Nat.not_le.2 hlt)⟩

/-- A fresh name is the first candidate that is free, and it is found among one more candidates than
there are names in use. -/
theorem exists_freshName_eq (table : NameTable) (id : Text) :
    ∃ k, k ≤ table.taken.length ∧ table.freshName id = candidate (baseName id) k ∧
      candidate (baseName id) k ∉ table.taken ∧
      ∀ j, j < k → candidate (baseName id) j ∈ table.taken := by
  obtain ⟨j, hj, hfree⟩ := exists_candidate_notMem table.taken (baseName id)
  obtain ⟨k, -, hk, heq, hnot, hbelow⟩ :=
    exists_firstFree_eq table.taken.length (k := 0) ⟨j, by omega, by omega, hfree⟩
  exact ⟨k, by omega, heq, hnot, fun i hi => hbelow i (Nat.zero_le i) hi⟩

theorem freshName_notMem (table : NameTable) (id : Text) : table.freshName id ∉ table.taken := by
  obtain ⟨k, -, heq, hfree, -⟩ := table.exists_freshName_eq id
  rwa [heq]

theorem isName_freshName (table : NameTable) (id : Text) : IsName (table.freshName id) := by
  obtain ⟨k, -, heq, -, -⟩ := table.exists_freshName_eq id
  rw [heq]
  exact isName_candidate (isName_baseName id) k

/-! ### Adding an id -/

section
variable {table : NameTable} {id other name : Text}

theorem nameOf_of_some (h : table.nameOf? id = some name) : table.nameOf id = name := by
  rw [nameOf, h, Option.getD_some]

theorem mem_entries_of_nameOf? (h : table.nameOf? id = some name) : (id, name) ∈ table.entries := by
  obtain ⟨before, after, heq, -⟩ := List.lookup_eq_some_iff.1 h
  rw [heq]
  simp

theorem mem_taken_of_nameOf? (h : table.nameOf? id = some name) : name ∈ table.taken :=
  List.mem_map.2 ⟨(id, name), mem_entries_of_nameOf? h, rfl⟩

theorem add_of_some (h : table.nameOf? id = some name) : table.add id = table := by
  rw [add, h]

theorem entries_add_of_none (h : table.nameOf? id = none) :
    (table.add id).entries = table.entries ++ [(id, table.freshName id)] := by
  rw [add, h]

theorem nameOf?_add_of_none (h : table.nameOf? id = none) :
    (table.add id).nameOf? id = some (table.freshName id) := by
  have hlookup : table.entries.lookup id = none := h
  rw [nameOf?, entries_add_of_none h, List.lookup_append, hlookup]
  simp

theorem nameOf?_add_of_some (h : table.nameOf? id = some name) (other : Text) :
    (table.add other).nameOf? id = some name := by
  cases hother : table.nameOf? other with
  | some held => rwa [add_of_some hother]
  | none =>
    have hlookup : table.entries.lookup id = some name := h
    rw [nameOf?, entries_add_of_none hother, List.lookup_append, hlookup, Option.some_or]

theorem nameOf?_add_of_ne (h : id ≠ other) : (table.add other).nameOf? id = table.nameOf? id := by
  cases hother : table.nameOf? other with
  | some held => rw [add_of_some hother]
  | none =>
    have hne : (id == other) = false := by simpa using h
    rw [nameOf?, entries_add_of_none hother, List.lookup_append, nameOf?]
    simp [List.lookup_cons, hne]

theorem isSome_nameOf?_add (table : NameTable) (id : Text) :
    ((table.add id).nameOf? id).isSome = true := by
  cases h : table.nameOf? id with
  | some name =>
    rw [add_of_some h, h]
    rfl
  | none =>
    rw [nameOf?_add_of_none h]
    rfl

end

/-! ### Tables -/

/-- No two ids share a name, and every name may stand in code. -/
structure Sound (table : NameTable) : Prop where
  nodup : table.taken.Nodup
  isName : ∀ name ∈ table.taken, IsName name

theorem sound_empty : Sound empty := ⟨List.nodup_nil, by simp [taken, empty]⟩

theorem sound_add {table : NameTable} (h : Sound table) (id : Text) : Sound (table.add id) := by
  cases hold : table.nameOf? id with
  | some name => rwa [add_of_some hold]
  | none =>
    have htaken : (table.add id).taken = table.taken ++ [table.freshName id] := by
      simp [taken, entries_add_of_none hold]
    refine ⟨?_, ?_⟩
    · rw [htaken, List.nodup_append]
      refine ⟨h.nodup, by simp, ?_⟩
      intro name hname other hother
      obtain rfl := List.mem_singleton.1 hother
      intro heq
      subst heq
      exact freshName_notMem table id hname
    · intro name hname
      rw [htaken, List.mem_append, List.mem_singleton] at hname
      rcases hname with hname | rfl
      · exact h.isName name hname
      · exact isName_freshName table id

theorem sound_foldl {table : NameTable} (h : Sound table) (ids : List Text) :
    Sound (ids.foldl add table) := by
  induction ids generalizing table with
  | nil => exact h
  | cons id ids ih => exact ih (sound_add h id)

theorem nameOf?_foldl_of_some {table : NameTable} {id name : Text}
    (h : table.nameOf? id = some name) (ids : List Text) :
    (ids.foldl add table).nameOf? id = some name := by
  induction ids generalizing table with
  | nil => exact h
  | cons other ids ih => exact ih (nameOf?_add_of_some h other)

theorem isSome_nameOf?_foldl (table : NameTable) {id : Text} {ids : List Text} (h : id ∈ ids) :
    ((ids.foldl add table).nameOf? id).isSome = true := by
  induction ids generalizing table with
  | nil => simp at h
  | cons other ids ih =>
    rcases List.mem_cons.1 h with rfl | h
    · obtain ⟨name, hname⟩ := Option.isSome_iff_exists.1 (isSome_nameOf?_add table id)
      rw [List.foldl_cons, nameOf?_foldl_of_some hname]
      rfl
    · exact ih (table.add other) h

theorem sound_ofIds (ids : List Text) : Sound (ofIds ids) := sound_foldl sound_empty ids

theorem mem_entries_nameOf {ids : List Text} {id : Text} (h : id ∈ ids) :
    (id, (ofIds ids).nameOf id) ∈ (ofIds ids).entries := by
  obtain ⟨name, hname⟩ := Option.isSome_iff_exists.1 (isSome_nameOf?_foldl empty h)
  have hlookup : (ofIds ids).nameOf? id = some name := hname
  rw [nameOf_of_some hlookup]
  exact mem_entries_of_nameOf? hlookup

/-- Different ids of a list get different names. -/
theorem nameOf_injOn (ids : List Text) :
    Set.InjOn (ofIds ids).nameOf {id | id ∈ ids} := by
  intro i hi j hj h
  have hmi : (i, (ofIds ids).nameOf i) ∈ (ofIds ids).entries := mem_entries_nameOf hi
  have hmj : (j, (ofIds ids).nameOf j) ∈ (ofIds ids).entries := mem_entries_nameOf hj
  rw [← h] at hmj
  have hpair := List.inj_on_of_nodup_map (sound_ofIds ids).nodup hmi hmj rfl
  exact (Prod.mk.inj hpair).1

theorem isName_nameOf (ids : List Text) (id : Text) : IsName ((ofIds ids).nameOf id) := by
  cases h : (ofIds ids).nameOf? id with
  | none =>
    rw [nameOf, h]
    exact isName_baseName id
  | some name =>
    rw [nameOf_of_some h]
    exact (sound_ofIds ids).isName name (mem_taken_of_nameOf? h)

end NameTable

end FlowDiagram
