import FlowDiagram.Proofs.Text.Split
import FlowDiagram.Proofs.Text.Trim
import FlowDiagram.Text.Substitution

/-!
# What each part of a scanner reads

For every part there is an equivalence that says of which texts it reads which lexeme. A scanner is
opened by rewriting with these and with `read_seq_eq_some_iff`; nothing else looks into its parts.
-/

namespace FlowDiagram.Text.Scanner

theorem read_seq_of_read {a b : Scanner} {t u x y rest : Text} (ha : a.read t = some (x, u))
    (hb : b.read u = some (y, rest)) : (a ++ b).read t = some (x ++ y, rest) :=
  read_seq_eq_some_iff.2 ⟨x, u, y, ha, hb, rfl⟩

theorem read_seq_of_none {a : Scanner} {t : Text} (h : a.read t = none) (b : Scanner) :
    (a ++ b).read t = none := by
  rw [read_seq, h, Option.bind_none]

theorem read_char_of_ne {c d : CodePoint} (h : c ≠ d) (t : Text) :
    (char d).read (c :: t) = none := by
  rw [char, read_one, if_neg (by simpa using h)]

theorem read_one_eq_some_iff {p : CodePoint → Bool} {t lexeme rest : Text} :
    (one p).read t = some (lexeme, rest) ↔ ∃ c, p c = true ∧ lexeme = [c] ∧ t = c :: rest := by
  cases t with
  | nil => simp [one]
  | cons c t =>
    rw [read_one]
    constructor
    · intro h
      split at h
      · rename_i hc
        obtain ⟨rfl, rfl⟩ := Prod.mk.inj (Option.some.inj h)
        exact ⟨c, hc, rfl, rfl⟩
      · simp at h
    · intro hform
      obtain ⟨d, hd, rfl, heq⟩ := hform
      obtain ⟨rfl, rfl⟩ := List.cons.inj heq
      rw [if_pos hd]

theorem read_char_eq_some_iff {c : CodePoint} {t lexeme rest : Text} :
    (char c).read t = some (lexeme, rest) ↔ lexeme = [c] ∧ t = c :: rest := by
  rw [char, read_one_eq_some_iff]
  simp

theorem read_empty_eq_some_iff {t lexeme rest : Text} :
    empty.read t = some (lexeme, rest) ↔ lexeme = [] ∧ t = rest := by
  simp [empty, eq_comm]

theorem read_literal_eq_some_iff {piece t lexeme rest : Text} :
    (literal piece).read t = some (lexeme, rest) ↔ lexeme = piece ∧ t = piece ++ rest := by
  induction piece generalizing t lexeme with
  | nil => exact read_empty_eq_some_iff
  | cons c piece ih =>
    have hstep : literal (c :: piece) = char c ++ literal piece := rfl
    rw [hstep, read_seq_eq_some_iff]
    constructor
    · intro hread
      obtain ⟨x, u, y, hx, hy, rfl⟩ := hread
      obtain ⟨rfl, rfl⟩ := read_char_eq_some_iff.1 hx
      obtain ⟨rfl, rfl⟩ := ih.1 hy
      exact ⟨rfl, rfl⟩
    · intro hform
      obtain ⟨rfl, rfl⟩ := hform
      exact ⟨[c], piece ++ rest, piece, read_char_eq_some_iff.2 ⟨rfl, rfl⟩,
        ih.2 ⟨rfl, rfl⟩, rfl⟩

theorem read_atLeast_eq_some_iff {low : Nat} {p : CodePoint → Bool} {t lexeme rest : Text} :
    (atLeast low p).read t = some (lexeme, rest) ↔
      t = lexeme ++ rest ∧ (∀ c ∈ lexeme, p c = true) ∧ Stops p rest ∧ low ≤ lexeme.length := by
  constructor
  · intro h
    simp only [atLeast] at h
    split at h
    · rename_i hlow
      obtain ⟨rfl, rfl⟩ := Prod.mk.inj (Option.some.inj h)
      exact ⟨List.takeWhile_append_dropWhile.symm, fun c hc => List.mem_takeWhile_imp hc,
        stops_dropWhile p t, hlow⟩
    · simp at h
  · intro hform
    obtain ⟨rfl, hall, hstop, hlow⟩ := hform
    simp only [atLeast, takeWhile_append_of_stops hall hstop,
      dropWhile_append_of_stops hall hstop]
    rw [if_pos hlow]

theorem read_between_eq_some_iff {low high : Nat} {p : CodePoint → Bool}
    {t lexeme rest : Text} :
    (between low high p).read t = some (lexeme, rest) ↔
      t = lexeme ++ rest ∧ (∀ c ∈ lexeme, p c = true) ∧ low ≤ lexeme.length ∧
        lexeme.length ≤ high ∧ (lexeme.length = high ∨ Stops p rest) := by
  constructor
  · intro h
    have happend := (between low high p).append_of_read h
    simp only [between] at h
    split at h
    · rename_i hlow
      obtain ⟨rfl, rfl⟩ := Prod.mk.inj (Option.some.inj h)
      refine ⟨happend.symm, fun c hc => List.mem_takeWhile_imp (List.mem_of_mem_take hc), hlow,
        List.length_take_le _ _, ?_⟩
      by_cases hlen : high ≤ (t.takeWhile p).length
      · left
        rw [List.length_take]
        omega
      · right
        have hshort : (t.takeWhile p).length ≤ high := by omega
        rw [List.take_of_length_le hshort] at happend ⊢
        have hboth : t.takeWhile p ++ t.drop (t.takeWhile p).length =
            t.takeWhile p ++ t.dropWhile p := by
          rw [happend, List.takeWhile_append_dropWhile]
        have hdrop := List.append_cancel_left hboth
        rw [hdrop]
        exact stops_dropWhile p t
    · simp at h
  · intro hform
    obtain ⟨rfl, hall, hlow, hhigh, hend⟩ := hform
    have hrun : ((lexeme ++ rest).takeWhile p).take high = lexeme := by
      rcases hend with rfl | hstop
      · rw [List.takeWhile_append_of_pos hall, List.take_left]
      · rw [takeWhile_append_of_stops hall hstop, List.take_of_length_le hhigh]
    simp only [between, hrun, List.drop_left]
    rw [if_pos hlow]

theorem read_optional_eq_some_iff {c : CodePoint} {t lexeme rest : Text} :
    (optional c).read t = some (lexeme, rest) ↔
      (lexeme = [c] ∧ t = c :: rest) ∨ (lexeme = [] ∧ t = rest ∧ Stops (· == c) t) := by
  rw [optional, read_between_eq_some_iff]
  constructor
  · intro hread
    obtain ⟨rfl, hall, -, hlen, hend⟩ := hread
    cases lexeme with
    | nil => exact Or.inr ⟨rfl, rfl, hend.resolve_left (by simp)⟩
    | cons d lexeme =>
      obtain rfl : lexeme = [] := List.length_eq_zero_iff.1 (by simpa using hlen)
      obtain rfl : d = c := by simpa using hall d (by simp)
      exact Or.inl ⟨rfl, rfl⟩
  · intro hform
    rcases hform with ⟨rfl, rfl⟩ | ⟨rfl, rfl, hstop⟩
    · exact ⟨rfl, by simp, by simp, by simp, Or.inl rfl⟩
    · exact ⟨rfl, by simp, by simp, by simp, Or.inr hstop⟩

theorem exists_read_atLeast_zero (p : CodePoint → Bool) (t : Text) :
    ∃ result, (atLeast 0 p).read t = some result :=
  ⟨(t.takeWhile p, t.dropWhile p), by simp [atLeast]⟩

theorem exists_read_optional (c : CodePoint) (t : Text) :
    ∃ result, (optional c).read t = some result := by
  simp [optional, between]

theorem read_notBefore_eq_some_iff {p : CodePoint → Bool} {t lexeme rest : Text} :
    (notBefore p).read t = some (lexeme, rest) ↔ lexeme = [] ∧ t = rest ∧ Stops p t := by
  cases t with
  | nil =>
    have hread : (notBefore p).read [] = some ([], []) := rfl
    rw [hread]
    simp [stops_nil, eq_comm]
  | cons c t =>
    have hread : (notBefore p).read (c :: t) = if p c then none else some ([], c :: t) := rfl
    rw [hread, stops_cons]
    cases hc : p c with
    | true => simp
    | false => simp [eq_comm]

theorem read_alternative_of_none {a b : Scanner} {t : Text} (h : a.read t = none) :
    (alternative a b).read t = b.read t := by
  simp only [alternative, h]

theorem read_alternative_eq_some_iff {a b : Scanner} {t : Text} {result : Text × Text} :
    (alternative a b).read t = some result ↔
      a.read t = some result ∨ (a.read t = none ∧ b.read t = some result) := by
  simp only [alternative]
  cases h : a.read t with
  | none => simp
  | some r => simp

/-! ### Use -/

theorem search_eq_none_iff {s : Scanner} {t : Text} :
    s.search t = none ↔ ∀ u, u <:+ t → s.read u = none := by
  induction t with
  | nil => simp [search]
  | cons c t ih =>
    simp only [search, List.suffix_cons_iff]
    cases h : s.read (c :: t) with
    | none =>
      simp only [ih]
      constructor
      · intro hall u hsuffix
        rcases hsuffix with rfl | hu
        · exact h
        · exact hall u hu
      · exact fun hall u hu => hall u (Or.inr hu)
    | some r =>
      simp only [reduceCtorEq, false_iff, not_forall]
      exact ⟨c :: t, Or.inl rfl, by simp [h]⟩

theorem search_of_read {s : Scanner} {t lexeme rest : Text} (h : s.read t = some (lexeme, rest)) :
    s.search t = some lexeme := by
  cases t with
  | nil => simp [search, h]
  | cons c t => simp [search, h]

theorem search_cons_of_none {s : Scanner} {c : CodePoint} {t : Text} (h : s.read (c :: t) = none) :
    s.search (c :: t) = s.search t := by
  simp only [search, h]

/-- What is found is read at the first place at which anything is. -/
theorem search_eq_some_iff {s : Scanner} {t lexeme : Text} :
    s.search t = some lexeme ↔
      ∃ before rest, t = before ++ (lexeme ++ rest) ∧
        s.read (lexeme ++ rest) = some (lexeme, rest) ∧
        ∀ other u, t = other ++ u → s.read u ≠ none → before.length ≤ other.length := by
  induction t with
  | nil =>
    constructor
    · intro h
      obtain ⟨⟨x, rest⟩, hread, rfl⟩ := Option.map_eq_some_iff.1 h
      have happend := s.append_of_read hread
      exact ⟨[], rest, happend.symm, by rwa [happend], fun _ _ _ _ => Nat.zero_le _⟩
    · rintro ⟨before, rest, ht, hread, -⟩
      obtain ⟨-, hnil⟩ := List.append_eq_nil_iff.1 ht.symm
      rw [hnil] at hread
      exact search_of_read hread
  | cons c t ih =>
    cases hread : s.read (c :: t) with
    | some result =>
      obtain ⟨x, r⟩ := result
      have happend := s.append_of_read hread
      rw [search_of_read hread, Option.some_inj]
      constructor
      · rintro rfl
        exact ⟨[], r, happend.symm, by rwa [happend], fun _ _ _ _ => Nat.zero_le _⟩
      · rintro ⟨before, rest, ht, hlexeme, hfirst⟩
        have hlen := hfirst [] (c :: t) rfl (by rw [hread]; exact Option.some_ne_none _)
        obtain rfl : before = [] := List.length_eq_zero_iff.1 (Nat.le_zero.1 hlen)
        rw [ht, List.nil_append, hlexeme] at hread
        exact (Prod.mk.inj (Option.some.inj hread)).1.symm
    | none =>
      rw [search_cons_of_none hread, ih]
      constructor
      · rintro ⟨before, rest, rfl, hlexeme, hfirst⟩
        refine ⟨c :: before, rest, rfl, hlexeme, fun other u hu hne => ?_⟩
        cases other with
        | nil => exact absurd hread (by rwa [hu])
        | cons d other => exact Nat.succ_le_succ (hfirst other u (List.cons.inj hu).2 hne)
      · rintro ⟨before, rest, ht, hlexeme, hfirst⟩
        cases before with
        | nil =>
          rw [ht, List.nil_append, hlexeme] at hread
          exact absurd hread (by simp)
        | cons d before =>
          refine ⟨before, rest, (List.cons.inj ht).2, hlexeme, fun other u hu hne => ?_⟩
          exact Nat.le_of_succ_le_succ (hfirst (c :: other) u (by rw [hu]; rfl) hne)

theorem search_ne_none_iff {s : Scanner} {t : Text} :
    s.search t ≠ none ↔
      ∃ before lexeme rest, t = before ++ (lexeme ++ rest) ∧
        s.read (lexeme ++ rest) = some (lexeme, rest) := by
  rw [ne_eq, search_eq_none_iff, not_forall]
  constructor
  · intro h
    obtain ⟨u, hu⟩ := h
    obtain ⟨⟨before, rfl⟩, hne⟩ := Classical.not_imp.1 hu
    obtain ⟨⟨lexeme, rest⟩, hread⟩ := Option.ne_none_iff_exists'.1 hne
    obtain rfl := s.append_of_read hread
    exact ⟨before, lexeme, rest, rfl, hread⟩
  · intro h
    obtain ⟨before, lexeme, rest, rfl, hread⟩ := h
    refine ⟨lexeme ++ rest, Classical.not_imp.2 ⟨List.suffix_append _ _, ?_⟩⟩
    rw [hread]
    exact Option.some_ne_none _

theorem substitute_eq_self {s : Scanner} {replacement t : Text}
    (h : ∀ u lexeme rest, u <:+ t → s.read u ≠ some (lexeme, rest)) :
    substitute (s.replaceBy replacement) t = t := by
  refine Text.substitute_eq_self fun u hu => ?_
  rw [replaceBy, Option.map_eq_none_iff]
  cases hread : s.read u with
  | none => rfl
  | some result => exact absurd hread (h u result.1 result.2 hu)

section
variable {s : Scanner} {c : CodePoint} {x t : Text}

theorem substitute_replaceBy_of_none {replacement : Text} (h : s.read (c :: t) = none) :
    substitute (s.replaceBy replacement) (c :: t) =
      c :: substitute (s.replaceBy replacement) t := by
  refine substitute_cons_of_none ?_
  rw [replaceBy, h, Option.map_none]

theorem substitute_replaceBy_of_some {replacement lexeme rest : Text}
    (h : s.read (c :: t) = some (lexeme, rest)) (hne : lexeme ≠ []) :
    substitute (s.replaceBy replacement) (c :: t) =
      replacement ++ substitute (s.replaceBy replacement) rest := by
  have hreplace : s.replaceBy replacement (c :: t) = some (lexeme, replacement) := by
    rw [replaceBy, h, Option.map_some]
  rw [substitute_cons_of_some hreplace hne, ← s.append_of_read h, List.drop_left]

theorem prefix_of_prefix_substitute
    (hs : ∀ {t lexeme rest}, s.read t = some (lexeme, rest) → lexeme ≠ []) (hc : c ∉ x)
    (h : x <+: substitute (s.replaceBy [c]) t) : x <+: t := by
  induction x generalizing t with
  | nil => exact List.nil_prefix
  | cons e x ih =>
    rw [List.mem_cons, not_or] at hc
    cases t with
    | nil => exact h
    | cons d t =>
      cases hread : s.read (d :: t) with
      | none =>
        rw [substitute_replaceBy_of_none hread, List.cons_prefix_cons] at h
        exact List.cons_prefix_cons.2 ⟨h.1, ih hc.2 h.2⟩
      | some result =>
        rw [substitute_replaceBy_of_some hread (hs hread), List.singleton_append,
          List.cons_prefix_cons] at h
        exact absurd h.1.symm hc.1

/-- A text in which lexemes are replaced by something shorter loses a character if there are any. -/
theorem length_substitute {replacement : Text}
    (hs : ∀ {t lexeme rest}, s.read t = some (lexeme, rest) → replacement.length < lexeme.length)
    (t : Text) :
    (substitute (s.replaceBy replacement) t).length + (if s.search t = none then 0 else 1) ≤
      t.length := by
  induction hn : t.length using Nat.strong_induction_on generalizing t with
  | _ n ih =>
    cases t with
    | nil =>
      have hnone : s.read [] = none := by
        cases hread : s.read [] with
        | none => rfl
        | some result =>
          have hlen := congrArg List.length (s.append_of_read hread)
          have hlt := hs hread
          rw [List.length_append, List.length_nil] at hlen
          omega
      simp [search, hnone]
    | cons d t =>
      cases hread : s.read (d :: t) with
      | none =>
        have hsearch : s.search (d :: t) = s.search t := by simp only [search, hread]
        have htail := ih t.length (by rw [← hn]; simp) t rfl
        rw [substitute_replaceBy_of_none hread, hsearch, ← hn, List.length_cons, List.length_cons]
        omega
      | some result =>
        obtain ⟨lexeme, rest⟩ := result
        have hlt := hs hread
        have hne : lexeme ≠ [] := List.length_pos_iff.1 (by omega)
        have hlen := congrArg List.length (s.append_of_read hread)
        rw [List.length_append, hn] at hlen
        have htail := ih rest.length (by omega) rest rfl
        have hsearch : s.search (d :: t) ≠ none := by simp [search, hread]
        rw [substitute_replaceBy_of_some hread hne, if_neg hsearch, List.length_append]
        omega

theorem substitute_eq_self_of_search {replacement : Text} (h : s.search t = none) :
    substitute (s.replaceBy replacement) t = t := by
  refine substitute_eq_self fun u lexeme rest hu hread => ?_
  rw [search_eq_none_iff.1 h u hu] at hread
  exact absurd hread (by simp)

/-- A piece that does not hold the new character stood in the text before. -/
theorem infix_of_infix_substitute
    (hs : ∀ {t lexeme rest}, s.read t = some (lexeme, rest) → lexeme ≠ []) (hc : c ∉ x)
    (h : x <:+: substitute (s.replaceBy [c]) t) : x <:+: t := by
  induction hn : t.length using Nat.strong_induction_on generalizing t with
  | _ n ih =>
    cases t with
    | nil => exact h
    | cons d t =>
      cases hread : s.read (d :: t) with
      | none =>
        have hsubst : substitute (s.replaceBy [c]) (d :: t) =
            d :: substitute (s.replaceBy [c]) t := substitute_replaceBy_of_none hread
        rw [hsubst, List.infix_cons_iff, ← hsubst] at h
        rcases h with hprefix | hinfix
        · exact (prefix_of_prefix_substitute hs hc hprefix).isInfix
        · exact List.infix_cons_iff.2 (Or.inr (ih t.length (by rw [← hn]; simp) hinfix rfl))
      | some result =>
        obtain ⟨lexeme, rest⟩ := result
        have happend := s.append_of_read hread
        have hlen : rest.length < n := by
          have hpos := List.length_pos_iff.2 (hs hread)
          rw [← hn, ← happend, List.length_append]
          omega
        rw [substitute_replaceBy_of_some hread (hs hread)] at h
        have hrest : x <:+: rest := by
          rcases infix_or_infix_of_append_cons (s := []) h hc with hnil | hinfix
          · rw [List.infix_nil] at hnil
            rw [hnil]
            exact List.nil_infix
          · exact ih rest.length hlen hinfix rfl
        exact hrest.trans ⟨lexeme, [], by simpa using happend⟩

end

theorem strip_of_read {s : Scanner} {t lexeme rest : Text}
    (h : s.read t = some (lexeme, rest)) : s.strip t = rest := by
  simp [strip, h]

theorem strip_of_none {s : Scanner} {t : Text} (h : s.read t = none) : s.strip t = t := by
  simp [strip, h]

theorem suffix_strip (s : Scanner) (t : Text) : s.strip t <:+ t := by
  cases hread : s.read t with
  | none => rw [strip_of_none hread]
  | some result =>
    rw [strip_of_read hread]
    exact ⟨result.1, s.append_of_read hread⟩

theorem strip_optional_cons (c : CodePoint) (t : Text) : (optional c).strip (c :: t) = t :=
  strip_of_read (read_optional_eq_some_iff.2 (Or.inl ⟨rfl, rfl⟩))

theorem strip_optional_of_stops {c : CodePoint} {t : Text} (h : Stops (· == c) t) :
    (optional c).strip t = t :=
  strip_of_read (read_optional_eq_some_iff.2 (Or.inr ⟨rfl, rfl, h⟩))

end FlowDiagram.Text.Scanner
