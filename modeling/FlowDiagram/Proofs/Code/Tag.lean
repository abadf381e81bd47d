import FlowDiagram.Proofs.Code.Block
import FlowDiagram.Proofs.Code.Fencing

/-!
# Tags behind a fence

`unfence` takes off the longest tag that follows the opening fence, and `firstBlock` takes one off
only where it stands alone on its line. Nothing else tells them apart: between two fences they find
the same code exactly if there is no tag or if it stands alone on its line. Of a reply that opens a
block and gives no more than a tag, nothing is left.
-/

namespace FlowDiagram.Code
open FlowDiagram.Text FlowDiagram.Text.Scanner

/-! ### Tags -/

theorem isBlank_of_isTagChar {c : CodePoint} (h : isTagChar c = true) : isBlank c = false := by
  have hpoints : ∀ n ∈ blankRanges.points, n ≤ 32 ∨ 122 < n := by decide +kernel
  cases hb : isBlank c with
  | false => rfl
  | true =>
    have hval := hpoints _ (CodeRanges.mem_points_of_covers hb)
    simp only [isTagChar, CodePoint.isAsciiLetter, CodePoint.isAsciiDigit, Bool.or_eq_true,
      Bool.and_eq_true, decide_eq_true_eq, beq_iff_eq, CodePoint.ext_iff,
      CodePoint.val_ofChar] at h
    have hunderscore : ('_' : Char).toNat = 95 := rfl
    have hhyphen : ('-' : Char).toNat = 45 := rfl
    omega

/-- What follows the longest tag at the start and the gap behind it. -/
def pastTag (x : Text) : Text := (x.dropWhile isTagChar).dropWhile isGap

theorem exists_pastTag (x : Text) :
    ∃ gap, x = x.takeWhile isTagChar ++ gap ++ pastTag x ∧ ∀ c ∈ gap, isGap c = true := by
  refine ⟨(x.dropWhile isTagChar).takeWhile isGap, ?_, fun c hc => List.mem_takeWhile_imp hc⟩
  rw [List.append_assoc, pastTag, List.takeWhile_append_dropWhile,
    List.takeWhile_append_dropWhile]

theorem pastTag_append_fence (x : Text) : pastTag (x ++ fence) = pastTag x ++ fence := by
  have htag : Stops isTagChar fence := stops_cons.2 (by decide)
  have hgap : Stops isGap fence := stops_cons.2 (by decide)
  rw [pastTag, dropWhile_append_right htag, dropWhile_append_right hgap, pastTag]

/-- The first line holds no more than a tag and a gap, and a line feed ends it. -/
def IsTagLine (x : Text) : Prop := (pastTag x).head? = some (CodePoint.ofChar '\n')

instance : DecidablePred IsTagLine := fun _ => inferInstanceAs (Decidable (_ = _))

theorem isTagLine_append_fence (x : Text) : IsTagLine (x ++ fence) ↔ IsTagLine x := by
  rw [IsTagLine, IsTagLine, pastTag_append_fence]
  cases pastTag x with
  | nil => exact iff_of_false (by decide) (by simp)
  | cons c code => rfl

theorem read_tagLine (x : Text) :
    tagLine.read x = ((char '\n').read (pastTag x)).map fun (feed, rest) =>
      (x.takeWhile isTagChar ++ (x.dropWhile isTagChar).takeWhile isGap ++ feed, rest) := rfl

theorem strip_tagLine_of_eq {x code : Text} (h : pastTag x = CodePoint.ofChar '\n' :: code) :
    tagLine.strip x = code := by
  have hread := read_tagLine x
  rw [read_char_eq_some_iff.2 ⟨rfl, h⟩] at hread
  exact strip_of_read hread

theorem strip_tagLine_of_not {x : Text} (h : ¬ IsTagLine x) : tagLine.strip x = x := by
  have hfeed : (char '\n').read (pastTag x) = none := by
    cases hpast : pastTag x with
    | nil => rfl
    | cons c code => exact read_char_of_ne (fun heq => h (by rw [IsTagLine, hpast, heq]; rfl)) code
  have hread := read_tagLine x
  rw [hfeed] at hread
  exact strip_of_none hread

theorem strip_tagLine_append_fence (x : Text) :
    tagLine.strip (x ++ fence) = tagLine.strip x ++ fence := by
  by_cases h : IsTagLine x
  · obtain ⟨code, hcode⟩ := List.head?_eq_some_iff.1 h
    have hfence := pastTag_append_fence x
    rw [hcode, List.cons_append] at hfence
    rw [strip_tagLine_of_eq hfence, strip_tagLine_of_eq hcode]
  · rw [strip_tagLine_of_not h, strip_tagLine_of_not (mt (isTagLine_append_fence x).1 h)]

theorem behindTag_of_eq {x code : Text} (h : pastTag x = CodePoint.ofChar '\n' :: code) :
    behindTag x = code := by
  have hbehind : behindTag x = (optional '\n').strip (pastTag x) := rfl
  rw [hbehind, h, strip_optional_cons]

theorem behindTag_of_not {x : Text} (h : ¬ IsTagLine x) : behindTag x = pastTag x := by
  refine strip_optional_of_stops fun c hc => ?_
  have hne : c ≠ CodePoint.ofChar '\n' := fun heq => h (hc.trans (congrArg some heq))
  simpa using hne

theorem behindTag_append_fence (x : Text) : behindTag (x ++ fence) = behindTag x ++ fence := by
  by_cases h : IsTagLine x
  · obtain ⟨code, hcode⟩ := List.head?_eq_some_iff.1 h
    have hfence := pastTag_append_fence x
    rw [hcode, List.cons_append] at hfence
    rw [behindTag_of_eq hfence, behindTag_of_eq hcode]
  · rw [behindTag_of_not h, behindTag_of_not (mt (isTagLine_append_fence x).1 h),
      pastTag_append_fence]

theorem trim_lineFeed (t : Text) : trim (CodePoint.ofChar '\n' :: t) = trim t := by
  have hfeed : ∀ c ∈ [CodePoint.ofChar '\n'], isBlank c = true := by decide
  simpa using trim_blanks hfeed (r := []) (by simp) t

theorem trim_strip_tagLine (x : Text) :
    trim (tagLine.strip x) = trim (if IsTagLine x then pastTag x else x) := by
  split
  · rename_i h
    obtain ⟨code, hcode⟩ := List.head?_eq_some_iff.1 h
    rw [strip_tagLine_of_eq hcode, hcode, trim_lineFeed]
  · rename_i h
    rw [strip_tagLine_of_not h]

theorem trim_behindTag (x : Text) : trim (behindTag x) = trim (pastTag x) := by
  by_cases h : IsTagLine x
  · obtain ⟨code, hcode⟩ := List.head?_eq_some_iff.1 h
    rw [behindTag_of_eq hcode, hcode, trim_lineFeed]
  · rw [behindTag_of_not h]

/-! ### What is found between the fences -/

/-- A text between two fences. -/
def enclose (x : Text) : Text := fence ++ x ++ fence

theorem trimmed_enclose (x : Text) : Trimmed (enclose x) := by
  have hfence : ∀ c ∈ fence, isBlank c = false := by decide
  constructor
  · intro c hc
    have hhead : (enclose x).head? = fence.head? := rfl
    rw [hhead] at hc
    exact hfence c (List.mem_of_mem_head? hc)
  · intro c hc
    have hlast : (enclose x).getLast? = fence.getLast? := by
      rw [enclose, List.getLast?_append]
      rfl
    rw [hlast] at hc
    exact hfence c (List.mem_of_mem_getLast? hc)

theorem trim_dropClosingFence (t : Text) :
    trim (dropClosingFence (t ++ fence)) = trim t := by
  by_cases hlast : t.getLast? = some (CodePoint.ofChar '\n')
  · obtain ⟨u, rfl⟩ := List.getLast?_eq_some_iff.1 hlast
    have hfeed : ∀ c ∈ [CodePoint.ofChar '\n'], isBlank c = true := by decide
    have hshape : u ++ [CodePoint.ofChar '\n'] ++ fence = u ++ (Text.ofString "\n" ++ fence) := by
      rw [List.append_assoc]
      rfl
    rw [hshape, dropClosingFence_lineFeed]
    simpa using (trim_blanks (l := []) (by simp) hfeed u).symm
  · rw [dropClosingFence_fence hlast]

theorem unfence_enclose (x : Text) : unfence (enclose x) = trim (pastTag x) := by
  rw [unfence, trim_eq_self (trimmed_enclose x), enclose, List.append_assoc, strip_openingFence,
    behindTag_append_fence, trim_dropClosingFence, trim_behindTag]

theorem firstBlock_enclose {x : Text} (hfence : ¬ fence <:+: x)
    (hlast : x.getLast? ≠ some (CodePoint.ofChar '\x60')) :
    firstBlock (enclose x) = trim (if IsTagLine x then pastTag x else x) := by
  have hsuffix := suffix_strip tagLine x
  have hinner : ¬ fence <:+: tagLine.strip x := fun hin => hfence (hin.trans hsuffix.isInfix)
  have hend : (tagLine.strip x).getLast? ≠ some (CodePoint.ofChar '\x60') := by
    intro hend
    obtain ⟨l, hl⟩ := hsuffix
    refine hlast ?_
    rw [← hl, List.getLast?_append, hend]
    rfl
  have hopen : cutAt? fence (enclose x) = some ([], x ++ fence) := by
    have hnone : ¬ fence <:+: [] ++ fence.dropLast := by decide
    rw [← cutAt?_append hnone (by decide), enclose, List.nil_append, List.append_assoc]
  -- No backtick comes before the last fence, so that it is not found any sooner.
  have hclose : cutAt? fence (tagLine.strip x ++ fence) = some (tagLine.strip x, []) := by
    have hseam : ¬ fence <:+: tagLine.strip x ++ fence.dropLast :=
      Fencing.not_fence_infix_append hinner hend (by decide)
    rw [← cutAt?_append hseam (by decide), List.append_nil]
  have hblock : closedBlock? (enclose x) = some (trim (tagLine.strip x)) := by
    simp only [closedBlock?, hopen, strip_tagLine_append_fence, hclose, Option.bind_eq_bind,
      Option.bind_some]
    rfl
  rw [firstBlock, hblock, Option.getD_some, trim_strip_tagLine]

/-! ### Agreement -/

theorem trim_pastTag_eq_iff (x : Text) :
    trim (pastTag x) = trim x ↔ x.takeWhile isTagChar = [] := by
  obtain ⟨gap, hx, hgap⟩ := exists_pastTag x
  have hblank : ∀ c ∈ gap, isBlank c = true := fun c hc => isBlank_of_isGap (hgap c hc)
  have hskip : trim (gap ++ pastTag x) = trim (pastTag x) := by
    simpa using trim_blanks hblank (r := []) (by simp) (pastTag x)
  constructor
  · intro heq
    -- Trimming takes off blanks only, so that the characters of a tag would be missing.
    have hcount := congrArg (List.countP fun c => !isBlank c) heq
    rw [← hskip, countP_trim, countP_trim] at hcount
    conv_rhs at hcount => rw [hx, List.append_assoc, List.countP_append]
    have hnone : (x.takeWhile isTagChar).countP (fun c => !isBlank c) = 0 := by omega
    refine List.eq_nil_iff_forall_not_mem.2 fun c hc => ?_
    have hblankTag : isBlank c = true := by simpa using List.countP_eq_zero.1 hnone c hc
    rw [isBlank_of_isTagChar (List.mem_takeWhile_imp hc)] at hblankTag
    exact absurd hblankTag (by decide)
  · intro hnil
    rw [hnil, List.nil_append] at hx
    rw [← hskip, ← hx]

/-- What `unfence` and `firstBlock` find between two fences, and when they find the same. -/
theorem unfence_eq_firstBlock_iff {x : Text} (hfence : ¬ fence <:+: x)
    (hlast : x.getLast? ≠ some (CodePoint.ofChar '\x60')) :
    unfence (enclose x) = trim (pastTag x) ∧
      firstBlock (enclose x) = trim (if IsTagLine x then pastTag x else x) ∧
      (unfence (enclose x) = firstBlock (enclose x) ↔
        x.takeWhile isTagChar = [] ∨ IsTagLine x) := by
  have hunfence := unfence_enclose x
  have hblock := firstBlock_enclose hfence hlast
  refine ⟨hunfence, hblock, ?_⟩
  rw [hunfence, hblock]
  by_cases h : IsTagLine x
  · rw [if_pos h]
    exact iff_of_true rfl (Or.inr h)
  · rw [if_neg h, trim_pastTag_eq_iff, or_iff_left h]

/-- A tag that stands alone on its line is taken off by both. -/
theorem unfence_eq_firstBlock_iff_mermaid :
    let x : Text := "mermaid \ngraph TD\n    a --> b\n"
    unfence (enclose x) = "graph TD\n    a --> b" ∧
      unfence (enclose x) = firstBlock (enclose x) := by
  intro x
  have hfence : ¬ fence <:+: x := by decide
  have hlast : x.getLast? ≠ some (CodePoint.ofChar '\x60') := by decide
  obtain ⟨hunfence, -, hagree⟩ := unfence_eq_firstBlock_iff hfence hlast
  refine ⟨?_, hagree.2 (Or.inr (by decide))⟩
  rw [hunfence]
  decide

/-- The code starts on the line of its fence. Its first word is taken for a tag by `unfence` and by
the verdict, but not by `firstBlock`. -/
theorem unfence_ne_firstBlock_header :
    let x : Text := "graph TD; a --> b"
    ¬ fence <:+: x ∧ x.head? ≠ some (CodePoint.ofChar '\x60') ∧
      x.getLast? ≠ some (CodePoint.ofChar '\x60') ∧
      unfence (enclose x) = "TD; a --> b" ∧ firstBlock (enclose x) = x ∧
      unfence (enclose x) ≠ firstBlock (enclose x) ∧
      (validate 15 (some (enclose x))).isValid = false ∧
      (validate 15 (some (firstBlock (enclose x)))).isValid = true := by
  intro x
  decide +kernel

/-! ### Replies without code -/

theorem suffix_behindTag (x : Text) : behindTag x <:+ x :=
  ((suffix_strip _ _).trans (List.dropWhile_suffix _)).trans (List.dropWhile_suffix _)

theorem not_fence_infix_of_blanks {t : Text} (h : ∀ c ∈ t, isBlank c = true) :
    ¬ fence <:+: t := by
  intro hin
  have hblank := h _ (hin.subset (List.mem_cons_self ..))
  exact absurd hblank (by decide)

theorem not_hasBlock_of_tag {t x : Text} (ht : trim t = fence ++ x)
    (hblank : ∀ c ∈ pastTag x, isBlank c = true) : ¬ HasBlock t := by
  have hnone : ∀ u : Text, (∀ c ∈ u, c ≠ CodePoint.ofChar '\x60') →
      u.count (CodePoint.ofChar '\x60') = 0 := fun u hu =>
    List.count_eq_zero.2 fun hmem => hu _ hmem rfl
  have hblanks : ∀ u : Text, (∀ c ∈ u, isBlank c = true) →
      u.count (CodePoint.ofChar '\x60') = 0 := fun u hu =>
    hnone u fun c hc heq => absurd (heq ▸ hu c hc) (by decide)
  have hthree : fence.count (CodePoint.ofChar '\x60') = 3 := rfl
  have htext : t.count (CodePoint.ofChar '\x60') = 3 := by
    obtain ⟨l, r, hl, hr, htrim, -⟩ := exists_trim t
    obtain ⟨gap, hx, hgap⟩ := exists_pastTag x
    have htag : ∀ c ∈ x.takeWhile isTagChar, c ≠ CodePoint.ofChar '\x60' := by
      intro c hc heq
      exact absurd (heq ▸ List.mem_takeWhile_imp hc) (by decide)
    rw [htrim, ht, hx]
    simp only [List.count_append, hblanks l hl, hblanks r hr, hnone _ htag,
      hblanks gap fun c hc => isBlank_of_isGap (hgap c hc), hblanks _ hblank, hthree]
  -- Two fences that do not overlap would take six backticks.
  intro hblock
  obtain ⟨a, b, c, rfl⟩ := hblock
  simp only [List.count_append, hthree] at htext
  omega

theorem not_hasBlock_of_blanks {t : Text} (h : ∀ c ∈ t, isBlank c = true) : ¬ HasBlock t := by
  intro hblock
  obtain ⟨a, b, c, rfl⟩ := hblock
  exact not_fence_infix_of_blanks h ⟨a, b ++ fence ++ c, by simp⟩

theorem trim_dropClosingFence_eq_nil_iff {t : Text} (ht : Trimmed t) (hopen : ¬ fence <+: t) :
    trim (dropClosingFence t) = [] ↔ t = [] := by
  by_cases hclose : fence <:+ t
  · obtain ⟨b, rfl⟩ := hclose
    rw [trim_dropClosingFence, trim_eq_nil_iff]
    cases b with
    | nil => exact absurd List.prefix_rfl hopen
    | cons c b =>
      -- Something that is not blank comes before a closing fence that is not the opening one.
      have hhead : isBlank c = false := ht.head c rfl
      refine iff_of_false (fun hblank => ?_) (by simp)
      rw [hblank c (List.mem_cons_self ..)] at hhead
      exact absurd hhead (by decide)
  · rw [dropClosingFence_of_not_suffix hclose, trim_eq_self ht]

theorem unfence_eq_nil_iff {t : Text} (hblock : ¬ HasBlock t) :
    unfence t = [] ↔
      trim t = [] ∨ ∃ x, trim t = fence ++ x ∧ ∀ c ∈ pastTag x, isBlank c = true := by
  by_cases hopen : fence <+: trim t
  · obtain ⟨x, hx⟩ := hopen
    have hclose : ¬ fence <:+ behindTag x := by
      intro hend
      obtain ⟨b, hb⟩ := hend.trans (suffix_behindTag x)
      refine hblock (HasBlock.of_infix ⟨[], b, [], ?_⟩ (infix_trim t))
      rw [← hx, ← hb]
      simp
    rw [unfence, ← hx, strip_openingFence, dropClosingFence_of_not_suffix hclose, trim_behindTag,
      trim_eq_nil_iff]
    simp [fence, Text.ofString]
  · have htag : ¬ ∃ x, trim t = fence ++ x ∧ ∀ c ∈ pastTag x, isBlank c = true := by
      intro hform
      obtain ⟨x, hx, -⟩ := hform
      exact hopen ⟨x, hx.symm⟩
    rw [unfence, strip_of_none (read_openingFence_eq_none_iff.2 hopen), or_iff_left htag,
      trim_dropClosingFence_eq_nil_iff (trimmed_trim t) hopen]

/-- There is no code in a reply that is blank, or has nothing in its first block, or ends behind an
opening fence and its tag. -/
theorem firstBlock_eq_nil_iff {t : Text} :
    firstBlock t = [] ↔ trim t = [] ∨ closedBlock? t = some [] ∨
      ∃ x, trim t = fence ++ x ∧ ∀ c ∈ pastTag x, isBlank c = true := by
  cases hclosed : closedBlock? t with
  | none =>
    rw [firstBlock, hclosed, Option.getD_none,
      unfence_eq_nil_iff (closedBlock?_eq_none_iff.1 hclosed)]
    simp
  | some code =>
    have hblock : HasBlock t := by
      by_contra hnone
      rw [closedBlock?_eq_none_iff.2 hnone] at hclosed
      exact absurd hclosed (by simp)
    have htrim : trim t ≠ [] := fun hnil => not_hasBlock_of_blanks (trim_eq_nil_iff.1 hnil) hblock
    have htag : ¬ ∃ x, trim t = fence ++ x ∧ ∀ c ∈ pastTag x, isBlank c = true := by
      intro hform
      obtain ⟨x, hx, hblank⟩ := hform
      exact not_hasBlock_of_tag hx hblank hblock
    rw [firstBlock, hclosed, Option.getD_some, or_iff_right htrim, or_iff_left htag]
    simp

end FlowDiagram.Code
