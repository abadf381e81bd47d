import FlowDiagram.Proofs.Text.Scanner
import Mathlib.Order.Basic

/-!
# Substitution part by part

A replacer is steady if it reads a lexeme in the same way whatever follows it. Substitution with a
steady replacer can be done part by part: between separators that stand in no lexeme, and behind each
head if every lexeme ends at the first head that it comes to. There a second substitution meets only
what ends where the first has put something.
-/

namespace FlowDiagram.Text
variable {r : Replacer} {c : CodePoint} {a b s t lexeme x : Text}

/-! ### Steady replacers -/

structure Steady (r : Replacer) : Prop where
  ne_nil : ∀ {t lexeme x}, r t = some (lexeme, x) → lexeme ≠ []
  isPrefix : ∀ {t lexeme x}, r t = some (lexeme, x) → lexeme <+: t
  read_append : ∀ {t lexeme x}, r t = some (lexeme, x) → ∀ s, r (lexeme ++ s) = some (lexeme, x)

theorem substitute_append_of_some (h : r (lexeme ++ s) = some (lexeme, x)) (hne : lexeme ≠ []) :
    substitute r (lexeme ++ s) = x ++ substitute r s := by
  obtain ⟨d, l, rfl⟩ := List.exists_cons_of_ne_nil hne
  have hdrop : (d :: (l ++ s)).drop (d :: l).length = s := List.drop_left
  rw [List.cons_append] at h ⊢
  rw [substitute_cons_of_some h hne, hdrop]

/-- A substitution goes on behind a lexeme where there is one, and else behind one character. -/
theorem Steady.induction (hr : Steady r) {P : Text → Prop} (nil : P [])
    (skip : ∀ d t, r (d :: t) = none → P t → P (d :: t))
    (lexeme : ∀ lexeme x s, r (lexeme ++ s) = some (lexeme, x) → lexeme ≠ [] → P s →
      P (lexeme ++ s)) (t : Text) : P t := by
  induction hn : t.length using Nat.strong_induction_on generalizing t with
  | _ n ih =>
    cases t with
    | nil => exact nil
    | cons d t =>
      cases hread : r (d :: t) with
      | none => exact skip d t hread (ih t.length (by rw [← hn]; simp) t rfl)
      | some result =>
        obtain ⟨l, x⟩ := result
        obtain ⟨s, hs⟩ := hr.isPrefix hread
        have hlen : s.length < n := by
          have hpos := List.length_pos_iff.2 (hr.ne_nil hread)
          rw [← hn, ← hs, List.length_append]
          omega
        rw [← hs] at hread ⊢
        exact lexeme l x s hread (hr.ne_nil hread) (ih s.length hlen s rfl)

/-- A piece in which no lexeme starts is left as it is. -/
theorem substitute_append_of_none (h : ∀ u, u ≠ [] → u <:+ a → r (u ++ b) = none) :
    substitute r (a ++ b) = a ++ substitute r b := by
  induction a with
  | nil => rfl
  | cons d a ih =>
    have hread : r (d :: (a ++ b)) = none := h (d :: a) (List.cons_ne_nil d a) List.suffix_rfl
    have hrest : substitute r (a ++ b) = a ++ substitute r b :=
      ih fun u hne hu => h u hne (hu.trans (List.suffix_cons d a))
    rw [List.cons_append, substitute_cons_of_none hread, hrest, List.cons_append]

theorem Steady.read_nil (hr : Steady r) : r [] = none := by
  cases h : r [] with
  | none => rfl
  | some result => exact absurd (List.prefix_nil.1 (hr.isPrefix h)) (hr.ne_nil h)

/-- A replacer that always puts something leaves something of every text. -/
theorem substitute_eq_nil_iff (h : ∀ {t lexeme x}, r t = some (lexeme, x) → x ≠ []) :
    substitute r t = [] ↔ t = [] := by
  cases t with
  | nil => exact iff_of_true rfl rfl
  | cons d t =>
    refine iff_of_false (fun hnil => ?_) (List.cons_ne_nil d t)
    cases hread : r (d :: t) with
    | none =>
      rw [substitute_cons_of_none hread] at hnil
      exact absurd hnil (List.cons_ne_nil _ _)
    | some result =>
      simp only [substitute, substituteFrom, hread, List.append_eq_nil_iff] at hnil
      exact h hread hnil.1

/-- A substitution makes the second text of the first, whatever comes behind it. -/
def Replaces (r : Replacer) (a b : Text) : Prop := ∀ s, substitute r (a ++ s) = b ++ substitute r s

namespace Replaces

theorem of_read (h : ∀ s, r (a ++ s) = some (a, x)) (hne : a ≠ []) : Replaces r a x :=
  fun s => substitute_append_of_some (h s) hne

theorem of_none (h : ∀ u, u ≠ [] → u <:+ a → ∀ s, r (u ++ s) = none) : Replaces r a a :=
  fun s => substitute_append_of_none fun u hne hu => h u hne hu s

/-- A text stays if no lexeme starts with one of its characters. -/
theorem of_chars (h : ∀ d ∈ a, ∀ s, r (d :: s) = none) : Replaces r a a := by
  refine of_none fun u hne hu s => ?_
  obtain ⟨d, v, rfl⟩ := List.exists_cons_of_ne_nil hne
  exact h d (hu.subset (by simp)) (v ++ s)

theorem append {a' b' : Text} (h : Replaces r a b) (h' : Replaces r a' b') :
    Replaces r (a ++ a') (b ++ b') := fun s => by
  rw [List.append_assoc, h, h', List.append_assoc]

theorem flatMap {α : Type} {f g : α → Text} (h : ∀ e, Replaces r (f e) (g e)) (es : List α) :
    Replaces r (es.flatMap f) (es.flatMap g) := by
  induction es with
  | nil => exact fun s => rfl
  | cons e es ih =>
    rw [List.flatMap_cons, List.flatMap_cons]
    exact (h e).append ih

theorem substitute_eq (h : Replaces r a b) : substitute r a = b := by
  simpa using h []

end Replaces

/-- Where no replacement has a character of the class, a substitution adds and moves none of it. -/
theorem filter_substitute_sublist {p : CodePoint → Bool}
    (h : ∀ {t lexeme x}, r t = some (lexeme, x) → x.filter p = []) (t : Text) :
    List.Sublist ((substitute r t).filter p) (t.filter p) := by
  have hfrom : ∀ skip, List.Sublist ((substituteFrom r skip t).filter p) (t.filter p) := by
    induction t with
    | nil => exact fun skip => by simp [substituteFrom]
    | cons d t ih =>
      have hcons : List.Sublist (t.filter p) ((d :: t).filter p) :=
        (List.sublist_cons_self d t).filter p
      intro skip
      cases skip with
      | succ skip => exact (ih skip).trans hcons
      | zero =>
        unfold substituteFrom
        split
        · rename_i hread
          rw [List.filter_append, h hread, List.nil_append]
          exact (ih _).trans hcons
        · rw [List.filter_cons, List.filter_cons]
          split
          · exact (ih 0).cons_cons d
          · exact ih 0
  exact hfrom 0

/-! ### Separators -/

/-- No lexeme reaches over the character. -/
def Avoids (r : Replacer) (c : CodePoint) : Prop :=
  ∀ {t lexeme x}, r t = some (lexeme, x) → c ∉ lexeme

theorem Steady.read_append_cons (hr : Steady r) (hc : Avoids r c) (a b : Text) :
    r (a ++ c :: b) = r a := by
  cases hread : r (a ++ c :: b) with
  | some result =>
    obtain ⟨l, x⟩ := result
    obtain ⟨s, hs⟩ := hr.isPrefix hread
    obtain ⟨k, rfl, -⟩ := exists_of_notMem_start hs.symm (hc hread)
    exact (hr.read_append hread k).symm
  | none =>
    cases ha : r a with
    | none => rfl
    | some result =>
      obtain ⟨l, x⟩ := result
      obtain ⟨s, rfl⟩ := hr.isPrefix ha
      rw [List.append_assoc, hr.read_append ha] at hread
      exact absurd hread (by simp)

theorem Steady.substitute_append_cons (hr : Steady r) (hc : Avoids r c) (a b : Text) :
    substitute r (a ++ c :: b) = substitute r a ++ c :: substitute r b := by
  induction a using hr.induction with
  | nil =>
    have hread : r (c :: b) = none := (hr.read_append_cons hc [] b).trans hr.read_nil
    rw [List.nil_append, substitute_cons_of_none hread]
    rfl
  | skip d t hread ih =>
    have hread' : r (d :: (t ++ c :: b)) = none := (hr.read_append_cons hc (d :: t) b).trans hread
    rw [List.cons_append, substitute_cons_of_none hread', substitute_cons_of_none hread, ih,
      List.cons_append]
  | lexeme l x s hread hne ih =>
    rw [List.append_assoc, substitute_append_of_some (hr.read_append hread _) hne,
      substitute_append_of_some hread hne, ih, List.append_assoc]

/-! ### The lexemes that are replaced -/

/-- Goes on with a text of which the first `skip` characters belong to the last lexeme. -/
def replacementsFrom (r : Replacer) : Nat → Text → List (Text × Text)
  | _, [] => []
  | skip + 1, _ :: t => replacementsFrom r skip t
  | 0, c :: t =>
    match r (c :: t) with
    | some (lexeme, replacement) =>
      (lexeme, replacement) :: replacementsFrom r (lexeme.length - 1) t
    | none => replacementsFrom r 0 t

/-- The lexemes that a substitution meets from left to right, each with what it puts in its place. -/
def replacements (r : Replacer) (t : Text) : List (Text × Text) := replacementsFrom r 0 t

theorem replacementsFrom_eq (r : Replacer) (skip : Nat) (t : Text) :
    replacementsFrom r skip t = replacements r (t.drop skip) := by
  induction skip generalizing t with
  | zero => rfl
  | succ skip ih =>
    cases t with
    | nil => rfl
    | cons c t => simpa [replacementsFrom] using ih t

@[simp] theorem replacements_nil (r : Replacer) : replacements r [] = [] := rfl

theorem replacements_cons_of_none (h : r (c :: t) = none) :
    replacements r (c :: t) = replacements r t := by
  simp [replacements, replacementsFrom, h]

theorem replacements_append_of_some (h : r (lexeme ++ s) = some (lexeme, x)) (hne : lexeme ≠ []) :
    replacements r (lexeme ++ s) = (lexeme, x) :: replacements r s := by
  obtain ⟨d, l, rfl⟩ := List.exists_cons_of_ne_nil hne
  rw [List.cons_append] at h ⊢
  have hdrop : (l ++ s).drop ((d :: l).length - 1) = s := List.drop_left
  have step : replacements r (d :: (l ++ s)) =
      (d :: l, x) :: replacementsFrom r ((d :: l).length - 1) (l ++ s) := by
    simp only [replacements, replacementsFrom, h]
  rw [step, replacementsFrom_eq, hdrop]

/-- Where every replacement lacks `k` of the counted characters, so does the text for each of them. -/
theorem Steady.countP_substitute (hr : Steady r) {p : CodePoint → Bool} {k : Nat}
    (hk : ∀ {t lexeme x}, r t = some (lexeme, x) → x.countP p + k ≤ lexeme.countP p) (t : Text) :
    (substitute r t).countP p + k * (replacements r t).length ≤ t.countP p := by
  induction t using hr.induction with
  | nil => simp
  | skip d t hread ih =>
    rw [substitute_cons_of_none hread, replacements_cons_of_none hread, List.countP_cons,
      List.countP_cons]
    omega
  | lexeme l x s hread hne ih =>
    have hlost := hk hread
    rw [substitute_append_of_some hread hne, replacements_append_of_some hread hne,
      List.countP_append, List.countP_append, List.length_cons, Nat.mul_succ]
    omega

/-- Where every replacement lightens the text around it, so does a substitution that changes
anything. -/
theorem Steady.substitute_eq_self_or_lt {α : Type} [Preorder α] (hr : Steady r) {weight : Text → α}
    (hw : ∀ {t lexeme x}, r t = some (lexeme, x) →
      x = lexeme ∨ ∀ v s, weight (v ++ x ++ s) < weight (v ++ lexeme ++ s)) (t : Text) :
    substitute r t = t ∨ ∀ v, weight (v ++ substitute r t) < weight (v ++ t) := by
  induction t using hr.induction with
  | nil => exact Or.inl rfl
  | skip d t hread ih =>
    rw [substitute_cons_of_none hread]
    rcases ih with heq | hlt
    · exact Or.inl (by rw [heq])
    · refine Or.inr fun v => ?_
      simpa using hlt (v ++ [d])
  | lexeme l x s hread hne ih =>
    rw [substitute_append_of_some hread hne]
    rcases hw hread with rfl | hput
    · rcases ih with heq | hlt
      · exact Or.inl (by rw [heq])
      · refine Or.inr fun v => ?_
        simpa using hlt (v ++ x)
    · refine Or.inr fun v => ?_
      have hhead : weight (v ++ x ++ s) < weight (v ++ (l ++ s)) := by
        simpa using hput v s
      rw [← List.append_assoc]
      rcases ih with heq | hlt
      · rwa [heq]
      · exact (hlt (v ++ x)).trans hhead

/-! ### Scanners -/

section
variable {scanner : Scanner} {replacement : Text}

theorem Scanner.replaceBy_eq_some_iff :
    scanner.replaceBy replacement t = some (lexeme, x) ↔
      x = replacement ∧ ∃ rest, scanner.read t = some (lexeme, rest) := by
  rw [Scanner.replaceBy, Option.map_eq_some_iff]
  constructor
  · intro h
    obtain ⟨⟨l, rest⟩, hread, hpair⟩ := h
    obtain ⟨rfl, rfl⟩ := Prod.mk.inj hpair
    exact ⟨rfl, rest, hread⟩
  · intro h
    obtain ⟨rfl, rest, hread⟩ := h
    exact ⟨(lexeme, rest), hread, rfl⟩

theorem Scanner.substitute_replaceBy_eq_nil_iff (h : replacement ≠ []) :
    substitute (scanner.replaceBy replacement) t = [] ↔ t = [] :=
  substitute_eq_nil_iff fun hread => (replaceBy_eq_some_iff.1 hread).1 ▸ h

theorem Scanner.steady_replaceBy
    (hs : ∀ {t lexeme rest}, scanner.read t = some (lexeme, rest) →
      lexeme ≠ [] ∧ ∀ s, scanner.read (lexeme ++ s) = some (lexeme, s)) :
    Steady (scanner.replaceBy replacement) where
  ne_nil h := by
    obtain ⟨-, rest, hread⟩ := replaceBy_eq_some_iff.1 h
    exact (hs hread).1
  isPrefix h := by
    obtain ⟨-, rest, hread⟩ := replaceBy_eq_some_iff.1 h
    exact isPrefix_of_read hread
  read_append h s := by
    obtain ⟨rfl, rest, hread⟩ := replaceBy_eq_some_iff.1 h
    exact replaceBy_eq_some_iff.2 ⟨rfl, s, (hs hread).2 s⟩

theorem Scanner.search_eq_none_iff_replacements (hr : Steady (scanner.replaceBy replacement))
    (t : Text) :
    scanner.search t = none ↔ replacements (scanner.replaceBy replacement) t = [] := by
  induction t using hr.induction with
  | nil =>
    have hread := hr.read_nil
    simpa [Scanner.search, Scanner.replaceBy] using hread
  | skip d t hread ih =>
    have hnone : scanner.read (d :: t) = none := by simpa [Scanner.replaceBy] using hread
    rw [replacements_cons_of_none hread, ← ih, Scanner.search, hnone]
  | lexeme l x s hread hne ih =>
    obtain ⟨-, rest, hscan⟩ := replaceBy_eq_some_iff.1 hread
    have hform := scanner.append_of_read hscan
    have hfound : scanner.search (l ++ s) ≠ none :=
      Scanner.search_ne_none_iff.2 ⟨[], l, rest, hform.symm, by rw [hform, hscan]⟩
    rw [replacements_append_of_some hread hne]
    exact iff_of_false hfound (by simp)

/-- Once every lexeme has given way to a character, no lexeme without that character is left. -/
theorem Scanner.not_infix_substitute (hr : Steady (scanner.replaceBy [c]))
    (hx : scanner.read x = some (x, [])) (hc : c ∉ x) (t : Text) :
    ¬ x <:+: substitute (scanner.replaceBy [c]) t := by
  have hlexeme : scanner.replaceBy [c] x = some (x, [c]) :=
    replaceBy_eq_some_iff.2 ⟨rfl, [], hx⟩
  have hne : x ≠ [] := hr.ne_nil hlexeme
  have hnonempty : ∀ {t lexeme rest}, scanner.read t = some (lexeme, rest) → lexeme ≠ [] :=
    fun hread => hr.ne_nil (replaceBy_eq_some_iff.2 ⟨rfl, _, hread⟩)
  induction t using hr.induction with
  | nil => simpa using hne
  | skip d t hread ih =>
    intro hin
    have hsubst := substitute_cons_of_none hread
    rw [hsubst, List.infix_cons_iff, ← hsubst] at hin
    rcases hin with hprefix | hin
    · obtain ⟨s, hs⟩ := prefix_of_prefix_substitute hnonempty hc hprefix
      rw [← hs, hr.read_append hlexeme] at hread
      exact absurd hread (by simp)
    · exact ih hin
  | lexeme l y s hread hl ih =>
    intro hin
    obtain ⟨rfl, -⟩ := replaceBy_eq_some_iff.1 hread
    rw [substitute_append_of_some hread hl] at hin
    rcases infix_or_infix_of_append_cons (s := []) hin hc with hnil | hin
    · exact hne (List.infix_nil.1 hnil)
    · exact ih hin

end

/-! ### Heads -/

/-- Each lexeme ends at the first head that comes, and so does what is put in its place. -/
structure Headed (r : Replacer) (c : CodePoint) : Prop extends Steady r where
  exists_lexeme : ∀ {t lexeme x}, r t = some (lexeme, x) → ∃ body, lexeme = body ++ [c] ∧ c ∉ body
  exists_replacement : ∀ {t lexeme x}, r t = some (lexeme, x) → ∃ body, x = body ++ [c] ∧ c ∉ body

/-- A text is a sequence of parts that end at a head, and of a part without one. -/
theorem head_induction (c : CodePoint) {P : Text → Prop} (free : ∀ t, c ∉ t → P t)
    (part : ∀ a b, c ∉ a → P b → P (a ++ c :: b)) (t : Text) : P t := by
  induction hn : t.length using Nat.strong_induction_on generalizing t with
  | _ n ih =>
    by_cases hc : c ∈ t
    · obtain ⟨a, b, rfl, ha⟩ := List.eq_append_cons_of_mem hc
      refine part a b ha (ih b.length ?_ b rfl)
      rw [← hn, List.length_append, List.length_cons]
      omega
    · exact free t hc

/-- The first head in a text is in one place. -/
theorem append_head_inj {a a' b b' : Text} (ha : c ∉ a) (ha' : c ∉ a')
    (h : a ++ c :: b = a' ++ c :: b') : a = a' ∧ b = b' := by
  have hne : ∀ u : Text, c ∉ u → ∀ e ∈ u, (e != c) = true := by
    intro u hu e he
    simpa using fun heq : e = c => hu (heq ▸ he)
  obtain ⟨haa, -, hbb⟩ := append_cons_inj_of_stops (hne a ha) (hne a' ha') (by simp) (by simp) h
  exact ⟨haa, hbb⟩

/-- The last head in a text is in one place. -/
theorem append_last_inj {a a' b b' : Text} (hb : c ∉ b) (hb' : c ∉ b')
    (h : a ++ c :: b = a' ++ c :: b') : a = a' ∧ b = b' := by
  have hrev : b.reverse ++ c :: a.reverse = b'.reverse ++ c :: a'.reverse := by
    simpa using congrArg List.reverse h
  obtain ⟨hbb, haa⟩ := append_head_inj (by simpa using hb) (by simpa using hb') hrev
  exact ⟨List.reverse_inj.1 haa, List.reverse_inj.1 hbb⟩

theorem Scanner.headed_replaceBy {scanner : Scanner} {body : Text}
    (hs : ∀ {t lexeme rest}, scanner.read t = some (lexeme, rest) →
      (∃ body, lexeme = body ++ [c] ∧ c ∉ body) ∧
        ∀ s, scanner.read (lexeme ++ s) = some (lexeme, s))
    (hbody : c ∉ body) : Headed (scanner.replaceBy (body ++ [c])) c where
  toSteady := steady_replaceBy fun hread => by
    obtain ⟨⟨b, rfl, -⟩, happend⟩ := hs hread
    exact ⟨by simp, happend⟩
  exists_lexeme h := by
    obtain ⟨-, rest, hread⟩ := replaceBy_eq_some_iff.1 h
    exact (hs hread).1
  exists_replacement h := by
    obtain ⟨rfl, -⟩ := replaceBy_eq_some_iff.1 h
    exact ⟨body, rfl, hbody⟩

namespace Headed

theorem lexeme_eq (hr : Headed r c) (ha : c ∉ a) (h : r (a ++ c :: b) = some (lexeme, x)) :
    lexeme = a ++ [c] := by
  obtain ⟨body, rfl, hbody⟩ := hr.exists_lexeme h
  obtain ⟨s, hs⟩ := hr.isPrefix h
  rw [List.append_assoc] at hs
  rw [(append_head_inj hbody ha hs).1]

theorem read_append_head (hr : Headed r c) (ha : c ∉ a) (b : Text) :
    r (a ++ c :: b) = r (a ++ [c]) := by
  cases hread : r (a ++ [c]) with
  | some result =>
    obtain ⟨l, x⟩ := result
    obtain rfl := hr.lexeme_eq ha hread
    simpa using hr.read_append hread b
  | none =>
    cases hb : r (a ++ c :: b) with
    | none => rfl
    | some result =>
      obtain ⟨l, x⟩ := result
      obtain rfl := hr.lexeme_eq ha hb
      have hself := hr.read_append hb []
      rw [List.append_nil, hread] at hself
      exact absurd hself (by simp)

theorem read_of_notMem (hr : Headed r c) (ht : c ∉ t) : r t = none := by
  cases hread : r t with
  | none => rfl
  | some result =>
    obtain ⟨body, hbody, -⟩ := hr.exists_lexeme hread
    exact absurd ((hr.isPrefix hread).subset (by rw [hbody]; simp)) ht

theorem substitute_of_notMem (hr : Headed r c) (ht : c ∉ t) : substitute r t = t :=
  substitute_eq_self fun _ hu => hr.read_of_notMem fun hmem => ht (hu.subset hmem)

theorem replacements_of_notMem (hr : Headed r c) (ht : c ∉ t) : replacements r t = [] := by
  induction t with
  | nil => rfl
  | cons d t ih =>
    rw [replacements_cons_of_none (hr.read_of_notMem ht)]
    exact ih fun hmem => ht (List.mem_cons_of_mem d hmem)

theorem exists_of_read (hr : Headed r c) (ha : c ∉ a) (h : r (a ++ [c]) = some (lexeme, x)) :
    ∃ y, c ∉ y ∧ r (a ++ [c]) = some (a ++ [c], y ++ [c]) ∧
      (∀ b, substitute r (a ++ c :: b) = y ++ c :: substitute r b) ∧
      ∀ b, replacements r (a ++ c :: b) = (a ++ [c], y ++ [c]) :: replacements r b := by
  obtain rfl := hr.lexeme_eq ha h
  obtain ⟨y, rfl, hy⟩ := hr.exists_replacement h
  refine ⟨y, hy, h, fun b => ?_, fun b => ?_⟩
  · have hsubst := substitute_append_of_some (hr.read_append h b) (hr.ne_nil h)
    simpa using hsubst
  · have hmet := replacements_append_of_some (hr.read_append h b) (hr.ne_nil h)
    simpa using hmet

/-- A part that ends at a head is replaced on its own: it has no lexeme, or one that ends at the
head. -/
theorem part_cases (hr : Headed r c) (ha : c ∉ a) :
    ((∀ u, u <:+ a → r (u ++ [c]) = none) ∧
        (∀ b, substitute r (a ++ c :: b) = a ++ c :: substitute r b) ∧
        ∀ b, replacements r (a ++ c :: b) = replacements r b) ∨
      ∃ p u y, a = p ++ u ∧ c ∉ p ++ y ∧ r (u ++ [c]) = some (u ++ [c], y ++ [c]) ∧
        (∀ b, substitute r (a ++ c :: b) = p ++ y ++ c :: substitute r b) ∧
        ∀ b, replacements r (a ++ c :: b) = (u ++ [c], y ++ [c]) :: replacements r b := by
  induction a with
  | nil =>
    cases hread : r [c] with
    | some result =>
      obtain ⟨y, hy, h, hsubst, hmet⟩ := hr.exists_of_read (a := []) (by simp) hread
      exact Or.inr ⟨[], [], y, rfl, hy, h, hsubst, hmet⟩
    | none =>
      have hnone : ∀ b, r (c :: b) = none := fun b => (hr.read_append_head ha b).trans hread
      refine Or.inl ⟨fun u hu => ?_, fun b => substitute_cons_of_none (hnone b),
        fun b => replacements_cons_of_none (hnone b)⟩
      rw [List.suffix_nil.1 hu]
      exact hread
  | cons d a ih =>
    cases hread : r (d :: a ++ [c]) with
    | some result =>
      obtain ⟨y, hy, h, hsubst, hmet⟩ := hr.exists_of_read ha hread
      exact Or.inr ⟨[], d :: a, y, rfl, hy, h, hsubst, hmet⟩
    | none =>
      have hnone : ∀ b, r (d :: (a ++ c :: b)) = none :=
        fun b => (hr.read_append_head ha b).trans hread
      rcases ih fun hmem => ha (List.mem_cons_of_mem d hmem) with
        ⟨hfree, hsubst, hmet⟩ | ⟨p, u, y, rfl, hpy, h, hsubst, hmet⟩
      · refine Or.inl ⟨fun u hu => ?_, fun b => ?_, fun b => ?_⟩
        · rcases List.suffix_cons_iff.1 hu with rfl | hu
          · exact hread
          · exact hfree u hu
        · rw [List.cons_append, substitute_cons_of_none (hnone b), hsubst, List.cons_append]
        · rw [List.cons_append, replacements_cons_of_none (hnone b), hmet]
      · refine Or.inr ⟨d :: p, u, y, rfl, ?_, h, fun b => ?_, fun b => ?_⟩
        · rw [List.mem_cons, not_or] at ha
          rw [List.cons_append, List.mem_cons, not_or]
          exact ⟨ha.1, hpy⟩
        · rw [List.cons_append, substitute_cons_of_none (hnone b), hsubst]
          simp
        · rw [List.cons_append, replacements_cons_of_none (hnone b), hmet]

/-- A part that no lexeme ends stays. -/
theorem substitute_part_of_none (hr : Headed r c) (ha : c ∉ a)
    (h : ∀ u, u <:+ a → r (u ++ [c]) = none) (b : Text) :
    substitute r (a ++ c :: b) = a ++ c :: substitute r b := by
  rcases hr.part_cases ha with ⟨-, hsubst, -⟩ | ⟨p, u, y, rfl, -, hread, -, -⟩
  · exact hsubst b
  · rw [h u (List.suffix_append p u)] at hread
    exact absurd hread (by simp)

/-- A text stays as it is exactly if every lexeme is its own replacement. -/
theorem substitute_eq_self_iff (hr : Headed r c) (t : Text) :
    substitute r t = t ↔ ∀ result ∈ replacements r t, result.2 = result.1 := by
  induction t using head_induction c with
  | free t ht => simp [hr.substitute_of_notMem ht, hr.replacements_of_notMem ht]
  | part a b ha ih =>
    rcases hr.part_cases ha with ⟨-, hsubst, hmet⟩ | ⟨p, u, y, rfl, hpy, -, hsubst, hmet⟩
    · rw [hsubst, hmet, ← ih]
      simp
    · rw [hsubst, hmet, List.forall_mem_cons, ← ih]
      constructor
      · intro h
        obtain ⟨hbody, hrest⟩ := append_head_inj hpy ha h
        exact ⟨by rw [List.append_cancel_left hbody], hrest⟩
      · intro h
        obtain ⟨hbody, hrest⟩ := h
        rw [hrest, List.append_cancel_right hbody]

/-! ### A second pass -/

theorem replacements_part_eq_nil_iff (hr : Headed r c) (ha : c ∉ a) (b : Text) :
    replacements r (a ++ c :: b) = [] ↔
      (∀ u, u <:+ a → r (u ++ [c]) = none) ∧ replacements r b = [] := by
  rcases hr.part_cases ha with ⟨hfree, -, hmet⟩ | ⟨p, u, y, rfl, -, hread, -, hmet⟩
  · rw [hmet]
    exact ⟨fun h => ⟨hfree, h⟩, And.right⟩
  · rw [hmet]
    refine iff_of_false (by simp) fun h => ?_
    rw [h.1 u (List.suffix_append p u)] at hread
    exact absurd hread (by simp)

/-- Lexemes that no replacement closes do not come up by a substitution. -/
theorem replacements_substitute_eq_nil {r' : Replacer} (hr : Headed r c) (hr' : Headed r' c)
    (hnew : ∀ {t lexeme y}, r t = some (lexeme, y ++ [c]) →
      ∀ v, c ∉ v ++ y → ∀ u, u <:+ v ++ y → r' (u ++ [c]) = none)
    (ht : replacements r' t = []) : replacements r' (substitute r t) = [] := by
  induction t using head_induction c with
  | free t hfree => rwa [hr.substitute_of_notMem hfree]
  | part a b ha ih =>
    obtain ⟨hpart, hrest⟩ := (hr'.replacements_part_eq_nil_iff ha b).1 ht
    rcases hr.part_cases ha with ⟨-, hsubst, -⟩ | ⟨p, u, y, rfl, hpy, hread, hsubst, -⟩
    · rw [hsubst]
      exact (hr'.replacements_part_eq_nil_iff ha _).2 ⟨hpart, ih hrest⟩
    · rw [hsubst]
      exact (hr'.replacements_part_eq_nil_iff hpy _).2 ⟨hnew hread p hpy, ih hrest⟩

/-- A substitution leaves no lexeme if no replacement closes one. -/
theorem replacements_substitute_self (hr : Headed r c)
    (hnew : ∀ {t lexeme y}, r t = some (lexeme, y ++ [c]) →
      ∀ v, c ∉ v ++ y → ∀ u, u <:+ v ++ y → r (u ++ [c]) = none)
    (t : Text) : replacements r (substitute r t) = [] := by
  induction t using head_induction c with
  | free t hfree => rw [hr.substitute_of_notMem hfree, hr.replacements_of_notMem hfree]
  | part a b ha ih =>
    rcases hr.part_cases ha with ⟨hpart, hsubst, -⟩ | ⟨p, u, y, rfl, hpy, hread, hsubst, -⟩
    · rw [hsubst]
      exact (hr.replacements_part_eq_nil_iff ha _).2 ⟨hpart, ih⟩
    · rw [hsubst]
      exact (hr.replacements_part_eq_nil_iff hpy _).2 ⟨hnew hread p hpy, ih⟩

/-- What a second pass still meets ends where the first pass has put something. -/
theorem exists_of_mem_replacements_substitute (hr : Headed r c) {result : Text × Text}
    (h : result ∈ replacements r (substitute r t)) :
    r result.1 = some result ∧
      ∃ s lexeme x v, r s = some (lexeme, x) ∧ result.1 <:+ v ++ x := by
  induction t using head_induction c with
  | free t hfree =>
    rw [hr.substitute_of_notMem hfree, hr.replacements_of_notMem hfree] at h
    exact absurd h (by simp)
  | part a b ha ih =>
    rcases hr.part_cases ha with ⟨-, hsubst, hmet⟩ | ⟨p, u, y, rfl, hpy, hread, hsubst, -⟩
    · rw [hsubst, hmet] at h
      exact ih h
    · rw [hsubst] at h
      rcases hr.part_cases hpy with ⟨-, -, hmet⟩ | ⟨q, w, z, hsplit, -, hself, -, hmet⟩
      · rw [hmet] at h
        exact ih h
      · rw [hmet] at h
        rcases List.mem_cons.1 h with rfl | h
        · refine ⟨hself, _, _, _, p, hread, q, ?_⟩
          rw [← List.append_assoc, ← List.append_assoc, hsplit]
        · exact ih h

end Headed

end FlowDiagram.Text
