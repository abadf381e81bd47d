import FlowDiagram.Text.Basic

/-!
# Scanners

A scanner reads a lexeme at the start of a text and never loses a character: lexeme and rest make
up the text again. Scanners are put together by `++` without going back: a repetition takes as many
characters as it may, which is the only way to go on wherever the next part starts with a character
outside its class.
-/

namespace FlowDiagram.Text

/-- Reads a lexeme at the start of a text and gives it with what follows. -/
structure Scanner where
  read : Text → Option (Text × Text)
  append_of_read : ∀ {t lexeme rest : Text}, read t = some (lexeme, rest) → lexeme ++ rest = t

namespace Scanner

/-! ### Parts -/

def one (p : CodePoint → Bool) : Scanner where
  read
    | [] => none
    | c :: t => if p c then some ([c], t) else none
  append_of_read {t lexeme rest} h := by
    cases t with
    | nil => simp at h
    | cons c t =>
      simp only at h
      split at h
      · obtain ⟨rfl, rfl⟩ := Prod.mk.inj (Option.some.inj h)
        rfl
      · simp at h

/-- As many characters of a class as there are, at least `low`. -/
def atLeast (low : Nat) (p : CodePoint → Bool) : Scanner where
  read t := if low ≤ (t.takeWhile p).length then some (t.takeWhile p, t.dropWhile p) else none
  append_of_read {t lexeme rest} h := by
    split at h
    · obtain ⟨rfl, rfl⟩ := Prod.mk.inj (Option.some.inj h)
      exact List.takeWhile_append_dropWhile
    · simp at h

/-- As many characters of a class as there are, at least `low`, but no more than `high`. -/
def between (low high : Nat) (p : CodePoint → Bool) : Scanner where
  read t :=
    let run := (t.takeWhile p).take high
    if low ≤ run.length then some (run, t.drop run.length) else none
  append_of_read {t lexeme rest} h := by
    simp only at h
    split at h
    · obtain ⟨rfl, rfl⟩ := Prod.mk.inj (Option.some.inj h)
      have hp : (t.takeWhile p).take high <+: t :=
        (List.take_prefix _ _).trans (List.takeWhile_prefix p)
      exact List.prefix_iff_eq_append.1 hp
    · simp at h

def empty : Scanner where
  read t := some ([], t)
  append_of_read {t lexeme rest} h := by simp_all

/-- The empty lexeme, where no character of the class comes next. -/
def notBefore (p : CodePoint → Bool) : Scanner where
  read
    | [] => some ([], [])
    | c :: t => if p c then none else some ([], c :: t)
  append_of_read {t lexeme rest} h := by
    cases t with
    | nil => simp_all
    | cons c t => grind

/-! ### Composition -/

def seq (first second : Scanner) : Scanner where
  read t :=
    (first.read t).bind fun (x, u) => (second.read u).map fun (y, rest) => (x ++ y, rest)
  append_of_read {t lexeme rest} h := by
    obtain ⟨⟨x, u⟩, hx, h⟩ := Option.bind_eq_some_iff.1 h
    obtain ⟨⟨y, r⟩, hy, h⟩ := Option.map_eq_some_iff.1 h
    obtain ⟨rfl, rfl⟩ := Prod.mk.inj h
    rw [List.append_assoc, second.append_of_read hy, first.append_of_read hx]

instance : Append Scanner := ⟨seq⟩

/-- The first scanner, or the second where the first reads nothing. -/
def alternative (first second : Scanner) : Scanner where
  read t :=
    match first.read t with
    | some result => some result
    | none => second.read t
  append_of_read {t lexeme rest} h := by
    split at h
    · rename_i r hr
      obtain rfl := Option.some.inj h
      exact first.append_of_read hr
    · exact second.append_of_read h

def char (c : CodePoint) : Scanner := one (· == c)

def optional (c : CodePoint) : Scanner := between 0 1 (· == c)

def literal (piece : Text) : Scanner := piece.foldr (fun c rest => char c ++ rest) empty

/-! ### Laws -/

theorem read_one (p : CodePoint → Bool) (c : CodePoint) (t : Text) :
    (one p).read (c :: t) = if p c then some ([c], t) else none := rfl

theorem read_seq (a b : Scanner) (t : Text) :
    (a ++ b).read t =
      (a.read t).bind fun (x, u) => (b.read u).map fun (y, rest) => (x ++ y, rest) := rfl

theorem read_seq_eq_some_iff {a b : Scanner} {t lexeme rest : Text} :
    (a ++ b).read t = some (lexeme, rest) ↔
      ∃ x u y, a.read t = some (x, u) ∧ b.read u = some (y, rest) ∧ x ++ y = lexeme := by
  simp [read_seq, Option.bind_eq_some_iff, Option.map_eq_some_iff]

theorem isPrefix_of_read {s : Scanner} {t lexeme rest : Text}
    (h : s.read t = some (lexeme, rest)) : lexeme <+: t :=
  ⟨rest, s.append_of_read h⟩

/-! ### Use -/

/-- The text without the lexeme at its start, if there is one. -/
def strip (s : Scanner) (t : Text) : Text :=
  match s.read t with
  | some (_, rest) => rest
  | none => t

/-- The leftmost lexeme in the text. -/
def search (s : Scanner) : Text → Option Text
  | [] => (s.read []).map Prod.fst
  | c :: t =>
    match s.read (c :: t) with
    | some (lexeme, _) => some lexeme
    | none => s.search t

end Scanner

end FlowDiagram.Text
