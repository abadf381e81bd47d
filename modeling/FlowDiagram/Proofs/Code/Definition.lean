import FlowDiagram.Code.Definition
import FlowDiagram.Proofs.Text.Class
import FlowDiagram.Proofs.Text.Lines
import FlowDiagram.Proofs.Text.Trim

/-!
# Lines that define nodes

After its blanks a line is read by its first word and the character behind it. A text can also be
read for ids character by character, with no more to remember than where in its line the reader
stands; `definedIds_eq_idsFrom` says that both come to the same.
-/

namespace FlowDiagram.Code
open FlowDiagram.Text

theorem definedId?_append {l w rest : Text} {c : CodePoint} (hl : ∀ d ∈ l, isBlank d = true)
    (hne : w ≠ []) (hw : ∀ d ∈ w, isWord d = true) (hc : isWord c = false) :
    definedId? (l ++ w ++ c :: rest) = if isShapeOpening c then some w else none := by
  obtain ⟨d, u, rfl⟩ := List.exists_cons_of_ne_nil hne
  have hd : isBlank d = false := isBlank_of_isWord (hw d (by simp))
  have htrim : trimLeft (l ++ (d :: u) ++ c :: rest) = (d :: u) ++ c :: rest := by
    rw [trimLeft, List.append_assoc]
    exact dropWhile_append_of_stops hl (stops_cons.2 hd)
  have htake : ((d :: u) ++ c :: rest).takeWhile isWord = d :: u :=
    takeWhile_append_of_stops hw (stops_cons.2 hc)
  have hdrop : ((d :: u) ++ c :: rest).dropWhile isWord = c :: rest :=
    dropWhile_append_of_stops hw (stops_cons.2 hc)
  unfold definedId?
  rw [htrim, htake, hdrop]

/-! ### Character by character -/

/-- Where in a line a reader stands who looks for the id that the line defines. -/
inductive Position
  | start
  | word (w : Text)
  | beyond

/-- The position behind a character, and the id if this character completes its definition. -/
def Position.step (p : Position) (c : CodePoint) : Position × Option Text :=
  if isLineEnd c then (.start, none)
  else
    match p with
    | start => (if isBlank c then .start else if isWord c then .word [c] else .beyond, none)
    | word w =>
      if isWord c then (.word (w ++ [c]), none)
      else (.beyond, if isShapeOpening c then some w else none)
    | beyond => (.beyond, none)

/-- The ids that a text defines for a reader who stands somewhere in its first line. -/
def idsFrom : Position → Text → List Text
  | _, [] => []
  | p, c :: t => (p.step c).2.toList ++ idsFrom (p.step c).1 t

/-- The id that a line defines for a reader who stands somewhere in it, with the line ahead. -/
def idFrom? : Position → Text → Option Text
  | .start, line => definedId? line
  | .word w, line =>
    match line.dropWhile isWord with
    | [] => none
    | next :: _ => if isShapeOpening next then some (w ++ line.takeWhile isWord) else none
  | .beyond, _ => none

theorem idFrom?_nil (p : Position) : idFrom? p [] = none := by
  cases p <;> rfl

theorem idFrom?_cons (p : Position) {c : CodePoint} (hc : isLineEnd c = false) (line : Text) :
    (idFrom? p (c :: line)).toList =
      (p.step c).2.toList ++ (idFrom? (p.step c).1 line).toList := by
  cases p with
  | start =>
    cases hb : isBlank c with
    | true => simp [Position.step, idFrom?, definedId?, trimLeft, hc, hb]
    | false =>
      cases hw : isWord c with
      | true =>
        cases hrest : line.dropWhile isWord with
        | nil => simp [Position.step, idFrom?, definedId?, trimLeft, hc, hb, hw, hrest]
        | cons d rest => simp [Position.step, idFrom?, definedId?, trimLeft, hc, hb, hw, hrest]
      | false => simp [Position.step, idFrom?, definedId?, trimLeft, hc, hb, hw]
  | word w =>
    cases hw : isWord c with
    | true => simp [Position.step, idFrom?, hc, hw]
    | false => simp [Position.step, idFrom?, hc, hw]
  | beyond => simp [Position.step, idFrom?, hc]

/-- The ids that lines define for a reader who stands somewhere in the first of them. -/
def idsOfLines (p : Position) : List Text → List Text
  | [] => []
  | line :: rest => (idFrom? p line).toList ++ rest.filterMap definedId?

theorem idsOfLines_start (ls : List Text) : idsOfLines .start ls = ls.filterMap definedId? := by
  cases ls with
  | nil => rfl
  | cons line rest => simp [idsOfLines, idFrom?, List.filterMap_eq_flatMap_toList]

theorem idsOfLines_nil_cons (p : Position) (ls : List Text) :
    idsOfLines p ([] :: ls) = idsOfLines .start ls := by
  rw [idsOfLines, idFrom?_nil, idsOfLines_start]
  rfl

theorem idsFrom_of_isLineEnd (p : Position) {c : CodePoint} (hc : isLineEnd c = true) (t : Text) :
    idsFrom p (c :: t) = idsFrom .start t := by
  simp [idsFrom, Position.step, hc]

theorem idsFrom_eq (p : Position) (t : Text) : idsFrom p t = idsOfLines p (lines t) := by
  fun_induction lines t generalizing p with
  | case1 => rfl
  | case2 c hc => rw [idsFrom_of_isLineEnd p hc, idsOfLines_nil_cons]; rfl
  | case3 c hc d u ih ihrest =>
    rw [idsFrom_of_isLineEnd p hc, idsOfLines_nil_cons]
    split
    · rename_i hcrlf
      have hd : isLineEnd d = true := by
        obtain rfl : d = CodePoint.ofChar '\n' := by simp_all
        decide
      rw [idsFrom_of_isLineEnd .start hd, ih]
    · exact ihrest .start
  | case4 c t hc hlines ih =>
    have hc : isLineEnd c = false := by simpa using hc
    have hline : idsOfLines p [[c]] = (idFrom? p [c]).toList ++ [] := rfl
    rw [idsFrom, ih, hlines, hline, idFrom?_cons p hc, idFrom?_nil, List.append_nil]
    rfl
  | case5 c t hc line rest hlines ih =>
    have hc : isLineEnd c = false := by simpa using hc
    rw [idsFrom, ih, hlines, idsOfLines, idsOfLines, idFrom?_cons p hc, List.append_assoc]

theorem definedIds_eq_idsFrom (t : Text) : definedIds t = idsFrom .start t := by
  rw [idsFrom_eq, idsOfLines_start, definedIds]

end FlowDiagram.Code
