import FlowDiagram.Text.CodePoint

/-!
# Texts

A text is a list of code points. Everything that the library reads or writes is one, and the
operations here say how texts are searched, cut and joined: `occurs` finds a piece anywhere, and
`cutAt?` splits a text at its first occurrence. A string literal may stand for a text.
-/

namespace FlowDiagram

/-- A text, one code point after the other; its length counts code points. -/
abbrev Text := List CodePoint

namespace Text

def ofString (s : String) : Text := s.toList.map CodePoint.ofChar

instance : Coe String Text := ⟨ofString⟩

/-- Every code point is a character of Unicode. A text that is not can still be held and compared,
but no encoding writes it. -/
def IsUnicode (t : Text) : Prop := ∀ c ∈ t, c.isHalf = false

instance (t : Text) : Decidable t.IsUnicode :=
  inferInstanceAs (Decidable (∀ c ∈ t, c.isHalf = false))

@[simp] theorem isUnicode_nil : IsUnicode [] := nofun

/-! ### Search -/

/-- Whether `piece` stands somewhere in the text. -/
def occurs (piece : Text) : Text → Bool
  | [] => piece.isEmpty
  | c :: t => piece.isPrefixOf (c :: t) || occurs piece t

theorem occurs_iff (piece t : Text) : occurs piece t = true ↔ piece <:+: t := by
  induction t with
  | nil => simp [occurs, List.isEmpty_iff]
  | cons c t ih => simp [occurs, List.infix_cons_iff, ih]

/-- The text before and the text after the first occurrence of `piece`. -/
def cutAt? (piece : Text) : Text → Option (Text × Text)
  | [] => if piece.isEmpty then some ([], []) else none
  | c :: t =>
    if piece.isPrefixOf (c :: t) then some ([], (c :: t).drop piece.length)
    else (cutAt? piece t).map fun (before, rest) => (c :: before, rest)

theorem eq_append_of_cutAt? {piece t before rest : Text}
    (h : cutAt? piece t = some (before, rest)) : t = before ++ piece ++ rest := by
  induction t generalizing before with
  | nil =>
    unfold cutAt? at h
    split at h
    · simp_all
    · simp at h
  | cons c t ih =>
    unfold cutAt? at h
    split at h
    · rename_i hp
      obtain ⟨u, hu⟩ := List.isPrefixOf_iff_prefix.1 hp
      obtain ⟨rfl, rfl⟩ := Prod.mk.inj (Option.some.inj h)
      rw [← hu, List.drop_left, List.nil_append]
    · obtain ⟨⟨b, r⟩, hb, he⟩ := Option.map_eq_some_iff.1 h
      obtain ⟨rfl, rfl⟩ := Prod.mk.inj he
      simp [ih hb]

theorem cutAt?_eq_none_iff (piece t : Text) : cutAt? piece t = none ↔ ¬ piece <:+: t := by
  rw [← occurs_iff]
  induction t with
  | nil => simp [cutAt?, occurs]
  | cons c t ih =>
    by_cases hp : piece.isPrefixOf (c :: t) <;> simp_all [cutAt?, occurs]

/-! ### Cutting runs -/

/-- The text without the run of the class at its end. -/
def dropWhileRight (p : CodePoint → Bool) (t : Text) : Text := (t.reverse.dropWhile p).reverse

/-! ### Joining -/

/-- The texts one after the other, with the separator between neighbours. -/
def joinWith (separator : Text) : List Text → Text
  | [] => []
  | [t] => t
  | t :: u :: rest => t ++ separator ++ joinWith separator (u :: rest)

@[simp] theorem joinWith_nil (s : Text) : joinWith s [] = [] := rfl

@[simp] theorem joinWith_singleton (s t : Text) : joinWith s [t] = t := rfl

theorem joinWith_cons (s t : Text) {ts : List Text} (h : ts ≠ []) :
    joinWith s (t :: ts) = t ++ s ++ joinWith s ts := by
  cases ts with
  | nil => contradiction
  | cons u ts => rfl

end Text

end FlowDiagram
