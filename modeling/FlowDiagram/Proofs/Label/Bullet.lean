import FlowDiagram.Proofs.Label.Segment

/-!
# Bullets

A list item starts with a sign or a number, and with blanks behind it and perhaps before it. The
scanner reads exactly these, with all the blanks that follow. No substitution of marks changes a
bullet: a star might begin emphasis, but a blank comes next.
-/

namespace FlowDiagram.Label
open FlowDiagram.Text FlowDiagram.Text.Scanner

/-! ### What a bullet is -/

/-- What a list item starts with: a sign, or a number with a point or a closing parenthesis. -/
inductive IsItemSign : Text → Prop
  | sign {c : CodePoint} (h : isBulletSign c = true) : IsItemSign [c]
  | number {digits : Text} {c : CodePoint} (chars : ∀ d ∈ digits, isDecimalDigit d = true)
      (one_le : 1 ≤ digits.length) (le_three : digits.length ≤ 3) (h : c = '.' ∨ c = ')') :
      IsItemSign (digits ++ [c])

/-- An item sign with blanks behind it and perhaps before it. -/
structure Bullet where
  lead : Text
  sign : Text
  gap : Text
  lead_blank : ∀ c ∈ lead, isBlank c = true
  isItemSign : IsItemSign sign
  gap_ne_nil : gap ≠ []
  gap_blank : ∀ c ∈ gap, isBlank c = true

def Bullet.written (b : Bullet) : Text := b.lead ++ b.sign ++ b.gap

def StartsBullet (t : Text) : Prop := ∃ b : Bullet, b.written <+: t

/-! ### Reading a bullet -/

def itemSign : Scanner := alternative (one isBulletSign) numberedBullet

theorem class_of_isBulletSign {c : CodePoint} (h : isBulletSign c = true) :
    isBlank c = false ∧ isDecimalDigit c = false := by
  have hall : ∀ d ∈ ofString "-*•+", isBlank d = false ∧ isDecimalDigit d = false := by decide
  exact hall c (List.contains_iff_mem.1 h)

theorem isBulletSign_of_isDecimalDigit {c : CodePoint} (h : isDecimalDigit c = true) :
    isBulletSign c = false := by
  cases hsign : isBulletSign c with
  | false => rfl
  | true =>
    rw [(class_of_isBulletSign hsign).2] at h
    exact absurd h (by decide)

theorem read_itemSign_eq_some_iff {t lexeme rest : Text} :
    itemSign.read t = some (lexeme, rest) ↔ IsItemSign lexeme ∧ t = lexeme ++ rest := by
  rw [itemSign, read_alternative_eq_some_iff]
  constructor
  · intro hread
    rcases hread with hread | ⟨-, hread⟩
    · obtain ⟨c, hc, rfl, rfl⟩ := read_one_eq_some_iff.1 hread
      exact ⟨.sign hc, rfl⟩
    · obtain ⟨digits, u, point, hdigits, hpoint, rfl⟩ := read_seq_eq_some_iff.1 hread
      obtain ⟨rfl, chars, one_le, le_three, -⟩ := read_between_eq_some_iff.1 hdigits
      obtain ⟨c, hc, rfl, rfl⟩ := read_one_eq_some_iff.1 hpoint
      exact ⟨.number chars one_le le_three (by simpa using hc), by simp⟩
  · intro hform
    obtain ⟨hsign, rfl⟩ := hform
    cases hsign with
    | @sign c hc => exact Or.inl (read_one_eq_some_iff.2 ⟨c, hc, rfl, rfl⟩)
    | @number digits c chars one_le le_three hc =>
      right
      have hpoint : (one fun c => c == '.' || c == ')').read ([c] ++ rest) = some ([c], rest) :=
        read_one_eq_some_iff.2 ⟨c, by simpa using hc, rfl, rfl⟩
      have hstop : Stops isDecimalDigit ([c] ++ rest) := by
        refine stops_cons.2 ?_
        rcases hc with rfl | rfl <;> decide
      have hdigits : (between 1 3 isDecimalDigit).read (digits ++ ([c] ++ rest)) =
          some (digits, [c] ++ rest) :=
        read_between_eq_some_iff.2 ⟨rfl, chars, one_le, le_three, Or.inr hstop⟩
      have hread : numberedBullet.read (digits ++ ([c] ++ rest)) = some (digits ++ [c], rest) :=
        read_seq_of_read hdigits hpoint
      rw [List.append_assoc]
      refine ⟨?_, hread⟩
      obtain ⟨d, u, rfl⟩ := List.exists_cons_of_length_pos one_le
      rw [List.cons_append, read_one, isBulletSign_of_isDecimalDigit (chars d (by simp))]
      rfl

/-- The characters of a bullet. -/
def isBulletChar (c : CodePoint) : Bool :=
  isBlank c || isBulletSign c || isDecimalDigit c || c == '.' || c == ')'

theorem IsItemSign.isBulletChar_of_mem {sign : Text} (h : IsItemSign sign) {c : CodePoint}
    (hc : c ∈ sign) : isBulletChar c = true := by
  cases h with
  | sign hsign =>
    obtain rfl := List.mem_singleton.1 hc
    simp [isBulletChar, hsign]
  | number chars _ _ hpoint =>
    rcases List.mem_append.1 hc with hc | hc
    · simp [isBulletChar, chars c hc]
    · obtain rfl := List.mem_singleton.1 hc
      rcases hpoint with rfl | rfl <;> decide

theorem IsItemSign.stops {sign : Text} (h : IsItemSign sign) (t : Text) :
    Stops isBlank (sign ++ t) := by
  cases h with
  | sign hsign => exact stops_cons.2 (class_of_isBulletSign hsign).1
  | number chars one_le _ _ =>
    obtain ⟨d, u, rfl⟩ := List.exists_cons_of_length_pos one_le
    exact stops_cons.2 (isBlank_of_isDecimalDigit (chars d (by simp)))

theorem IsItemSign.eq_star {sign : Text} (h : IsItemSign sign)
    (hstar : CodePoint.ofChar '*' ∈ sign) : sign = [CodePoint.ofChar '*'] := by
  cases h with
  | sign _ => rw [List.mem_singleton.1 hstar]
  | number chars _ _ hpoint =>
    rcases List.mem_append.1 hstar with hstar | hstar
    · exact absurd (chars _ hstar) (by decide)
    · rw [List.mem_singleton] at hstar
      rcases hpoint with rfl | rfl <;> exact absurd hstar (by decide)

namespace Bullet

theorem isBulletChar_of_mem (b : Bullet) {c : CodePoint} (hc : c ∈ b.written) :
    isBulletChar c = true := by
  rcases List.mem_append.1 hc with hc | hc
  · rcases List.mem_append.1 hc with hc | hc
    · simp [isBulletChar, b.lead_blank c hc]
    · exact b.isItemSign.isBulletChar_of_mem hc
  · simp [isBulletChar, b.gap_blank c hc]

theorem read_written (b : Bullet) (t : Text) :
    bullet.read (b.written ++ t) =
      some (b.written ++ t.takeWhile isBlank, t.dropWhile isBlank) := by
  have hsign : itemSign.read (b.sign ++ (b.gap ++ t)) = some (b.sign, b.gap ++ t) :=
    read_itemSign_eq_some_iff.2 ⟨b.isItemSign, rfl⟩
  have hlead : (atLeast 0 isBlank).read (b.lead ++ (b.sign ++ (b.gap ++ t))) =
      some (b.lead, b.sign ++ (b.gap ++ t)) :=
    read_atLeast_eq_some_iff.2 ⟨rfl, b.lead_blank, b.isItemSign.stops _, Nat.zero_le _⟩
  have hgap : (atLeast 1 isBlank).read (b.gap ++ t) =
      some (b.gap ++ t.takeWhile isBlank, t.dropWhile isBlank) := by
    rw [read_atLeast_eq_some_iff]
    refine ⟨?_, ?_, stops_dropWhile isBlank t, ?_⟩
    · rw [List.append_assoc, List.takeWhile_append_dropWhile]
    · intro c hc
      exact (List.mem_append.1 hc).elim (b.gap_blank c) fun h => List.mem_takeWhile_imp h
    · have hpos := List.length_pos_iff.2 b.gap_ne_nil
      rw [List.length_append]
      omega
  have hread : bullet.read (b.lead ++ (b.sign ++ (b.gap ++ t))) =
      some (b.lead ++ b.sign ++ (b.gap ++ t.takeWhile isBlank), t.dropWhile isBlank) :=
    read_seq_of_read (read_seq_of_read hlead hsign) hgap
  simpa only [written, List.append_assoc] using hread

theorem exists_of_read {t lexeme rest : Text} (h : bullet.read t = some (lexeme, rest)) :
    ∃ b : Bullet, b.written = lexeme := by
  obtain ⟨x, u, gap, hx, hgap, rfl⟩ := read_seq_eq_some_iff.1 h
  obtain ⟨lead, v, sign, hlead, hsign, rfl⟩ := read_seq_eq_some_iff.1 hx
  obtain ⟨-, lead_blank, -, -⟩ := read_atLeast_eq_some_iff.1 hlead
  obtain ⟨-, gap_blank, -, one_le⟩ := read_atLeast_eq_some_iff.1 hgap
  obtain ⟨isItemSign, -⟩ := read_itemSign_eq_some_iff.1 hsign
  exact ⟨⟨lead, sign, gap, lead_blank, isItemSign, List.length_pos_iff.1 one_le, gap_blank⟩, rfl⟩

theorem read_eq_none_iff {t : Text} : bullet.read t = none ↔ ¬ StartsBullet t := by
  constructor
  · intro hnone hstarts
    obtain ⟨b, u, rfl⟩ := hstarts
    rw [b.read_written] at hnone
    exact absurd hnone (by simp)
  · intro hnot
    cases hread : bullet.read t with
    | none => rfl
    | some result =>
      obtain ⟨b, hb⟩ := exists_of_read hread
      exact absurd ⟨b, hb ▸ isPrefix_of_read hread⟩ hnot

/-! A bullet starts no mark. A star might, but behind it comes a blank. -/

theorem replaces_citation (b : Bullet) : Replaces (citation.replaceBy []) b.written b.written :=
  replaces_citation_self fun _ hc =>
    startsCitation_eq_false (b.isBulletChar_of_mem hc) (by decide) (by decide)

theorem replaces_tag (b : Bullet) : Replaces (tag.replaceBy " ") b.written b.written :=
  replaces_tag_self fun _ hc => ne_of_class (b.isBulletChar_of_mem hc) (by decide)

theorem replaces_emphasis (b : Bullet) : Replaces (emphasis.replaceBy []) b.written b.written := by
  have hblank : ∀ c, isBlank c = true → startsEmphasis c = false := fun c hc =>
    startsEmphasis_eq_false hc (by decide) (by decide) (ne_of_class hc (by decide))
  have hlead : Replaces (emphasis.replaceBy []) b.lead b.lead :=
    replaces_emphasis_self fun c hc => hblank c (b.lead_blank c hc)
  have hgap : Replaces (emphasis.replaceBy []) b.gap b.gap :=
    replaces_emphasis_self fun c hc => hblank c (b.gap_blank c hc)
  -- A star is read with the blank behind it; no other sign has a character of emphasis.
  by_cases hstar : CodePoint.ofChar '*' ∈ b.sign
  · obtain ⟨g, gap, hcons⟩ := List.exists_cons_of_ne_nil b.gap_ne_nil
    have hg : g ≠ '*' := ne_of_class (b.gap_blank g (by simp [hcons])) (by decide)
    have hsign : Replaces (emphasis.replaceBy []) (b.sign ++ b.gap) (b.sign ++ b.gap) := fun s => by
      have hnone : emphasis.replaceBy [] (CodePoint.ofChar '*' :: (b.gap ++ s)) = none := by
        rw [replaceBy, hcons, List.cons_append, read_emphasis_star hg, Option.map_none]
      rw [b.isItemSign.eq_star hstar, List.append_assoc, List.singleton_append,
        substitute_cons_of_none hnone, hgap]
      rfl
    simpa only [written, List.append_assoc] using hlead.append hsign
  · have hsign : Replaces (emphasis.replaceBy []) b.sign b.sign :=
      replaces_emphasis_self fun c hc => startsEmphasis_eq_false
        (b.isItemSign.isBulletChar_of_mem hc) (by decide) (by decide) fun heq => hstar (heq ▸ hc)
    exact (hlead.append hsign).append hgap

end Bullet

end FlowDiagram.Label
