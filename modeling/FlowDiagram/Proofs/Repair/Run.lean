import FlowDiagram.Proofs.Repair.Stages

/-!
# Runs of one improver

An improver may take up a chat model in the middle of a run. All that can be seen of a request
depends on the improver once it is equipped. So it does not matter when that happens, and a run
looks as if there had been a fresh improver for each request.
-/

namespace FlowDiagram.Repair

/-! ### What can be seen and counted -/

/-- What a request comes to and what was asked for it. -/
def Step.observed (x : Step) : Except Failure Improvement × Inquiry := (x.result, x.inquiry)

def Supply.size (s : Supply) : Nat := s.answers.length + s.replies.length

/-- How often a reviser can still answer. -/
def Reviser.stock (reviser : Reviser) (s : Supply) : Nat :=
  match reviser with
  | prepared => s.answers.length
  | chat _ => s.replies.length

theorem Reviser.size_spend (reviser : Reviser) (s : Supply) :
    (reviser.spend s).size + min 1 (reviser.stock s) = s.size := by
  cases reviser with
  | prepared =>
    simp only [spend, stock, Supply.size, List.length_drop]
    omega
  | chat model =>
    simp only [spend, stock, Supply.size, List.length_drop]
    omega

namespace Improver
variable {settings : Settings} {i j : Improver} {s : Supply} {r : Request}

/-! ### Equipping -/

theorem equipped_of_isSome (h : i.reviser.isSome = true) : i.equipped settings = i := by
  obtain ⟨reviser, hreviser⟩ := Option.isSome_iff_exists.1 h
  simp only [equipped, hreviser]

theorem equipped_of_not_useModel (h : i.useModel = false) : i.equipped settings = i := by
  obtain ⟨useModel, reviser⟩ := i
  subst h
  cases reviser <;> rfl

@[simp] theorem equipped_equipped (settings : Settings) (i : Improver) :
    (i.equipped settings).equipped settings = i.equipped settings := by
  cases huse : i.useModel with
  | false => rw [equipped_of_not_useModel huse, equipped_of_not_useModel huse]
  | true =>
    refine equipped_of_isSome ?_
    rw [reviser_equipped, huse, if_pos rfl]
    cases i.reviser <;> rfl

theorem isSome_reviser_equipped :
    (i.equipped settings).reviser.isSome = true ↔ i.reviser.isSome = true ∨ i.useModel = true := by
  rw [reviser_equipped]
  cases i.reviser <;> cases i.useModel <;> simp

theorem reviser_equipped_ne_iff :
    (i.equipped settings).reviser ≠ i.reviser ↔ i.reviser = none ∧ i.useModel = true := by
  rw [reviser_equipped]
  cases i.reviser <;> cases i.useModel <;> simp

/-! ### One request -/

theorem equipped_handle (settings : Settings) (i : Improver) (s : Supply) (r : Request) :
    ((i.handle settings s r).2.1).equipped settings = i.equipped settings := by
  rw [improver_handle]
  split
  · exact equipped_equipped settings i
  · rfl

theorem asked_congr (h : i.equipped settings = j.equipped settings) (r : Request) :
    i.asked settings r = j.asked settings r := by
  rw [asked, asked, h]

theorem observed_handle_congr (h : i.equipped settings = j.equipped settings) (s : Supply)
    (r : Request) : (i.handle settings s r).1.observed = (j.handle settings s r).1.observed := by
  simp only [Step.observed, handle_result, inquiry_handle, asked_congr h, h]

theorem supply_handle_congr (h : i.equipped settings = j.equipped settings) (s : Supply)
    (r : Request) : (i.handle settings s r).2.2 = (j.handle settings s r).2.2 := by
  rw [supply_handle, supply_handle, asked_congr h]

theorem isSome_asked : (i.asked settings r).isSome = true ↔
    r.IsOpen settings.minLength ∧ (i.reviser.isSome = true ∨ i.useModel = true) := by
  rw [← @isSome_reviser_equipped settings]
  by_cases hopen : r.IsOpen settings.minLength
  · rw [asked_of_isOpen hopen]
    simp [hopen]
  · rw [asked, if_neg hopen]
    simp [hopen]

theorem reviser_of_asked {reviser : Reviser} (h : i.asked settings r = some reviser) :
    (i.equipped settings).reviser = some reviser := by
  unfold asked at h
  split at h
  · exact h
  · exact absurd h (by simp)

/-- Each inquiry takes one answer as long as there are any. -/
theorem size_supply_handle (settings : Settings) (i : Improver) (s : Supply) (r : Request) :
    (i.handle settings s r).2.2.size + min (i.handle settings s r).1.inquiry.size
      ((i.equipped settings).reviser.elim 0 fun reviser => reviser.stock s) = s.size := by
  rw [size_inquiry_handle, supply_handle]
  cases hasked : i.asked settings r with
  | none => simp
  | some reviser =>
    rw [reviser_of_asked hasked]
    exact reviser.size_spend s

/-! ### Runs -/

/-- What is left of an improver and its supply after some requests. -/
def after (settings : Settings) (i : Improver) (s : Supply) (rs : List Request) :
    Improver × Supply :=
  rs.foldl (fun held r => (held.1.handle settings held.2 r).2) (i, s)

@[simp] theorem after_nil (settings : Settings) (i : Improver) (s : Supply) :
    i.after settings s [] = (i, s) := rfl

theorem run_cons (settings : Settings) (i : Improver) (s : Supply) (r : Request)
    (rs : List Request) :
    i.run settings s (r :: rs) =
      (i.handle settings s r).1 ::
        (i.handle settings s r).2.1.run settings (i.handle settings s r).2.2 rs := by
  rw [run]

theorem after_cons (settings : Settings) (i : Improver) (s : Supply) (r : Request)
    (rs : List Request) :
    i.after settings s (r :: rs) =
      (i.handle settings s r).2.1.after settings (i.handle settings s r).2.2 rs := by
  rw [after, List.foldl_cons, after]

theorem observed_runFresh_cons (settings : Settings) (i : Improver) (s : Supply) (r : Request)
    (rs : List Request) :
    (i.runFresh settings s (r :: rs)).map Step.observed =
      (i.handle settings s r).1.observed ::
        (i.runFresh settings (i.handle settings s r).2.2 rs).map Step.observed := by
  simp only [runFresh, List.map_cons, Step.observed]

theorem run_append (settings : Settings) (i : Improver) (s : Supply) (rs qs : List Request) :
    i.run settings s (rs ++ qs) =
      i.run settings s rs ++
        (i.after settings s rs).1.run settings (i.after settings s rs).2 qs := by
  induction rs generalizing i s with
  | nil => rfl
  | cons r rs ih => rw [List.cons_append, run_cons, run_cons, after_cons, ih, List.cons_append]

theorem equipped_after (settings : Settings) (i : Improver) (s : Supply) (rs : List Request) :
    (i.after settings s rs).1.equipped settings = i.equipped settings := by
  induction rs generalizing i s with
  | nil => rfl
  | cons r rs ih => rw [after_cons, ih, equipped_handle]

theorem improver_after (settings : Settings) (i : Improver) (s : Supply) (rs : List Request) :
    (i.after settings s rs).1 =
      if ∃ q ∈ rs, q.IsOpen settings.minLength then i.equipped settings else i := by
  induction rs generalizing i s with
  | nil => simp
  | cons r rs ih =>
    rw [after_cons, ih, improver_handle]
    by_cases hr : r.IsOpen settings.minLength
    · simp [hr]
    · simp [hr]

theorem observed_run_congr (h : i.equipped settings = j.equipped settings) (s : Supply)
    (rs : List Request) :
    (i.run settings s rs).map Step.observed = (j.run settings s rs).map Step.observed := by
  induction rs generalizing i j s with
  | nil => rfl
  | cons r rs ih =>
    have hnext : (i.handle settings s r).2.1.equipped settings =
        (j.handle settings s r).2.1.equipped settings := by
      rw [equipped_handle, equipped_handle, h]
    rw [run_cons, run_cons, List.map_cons, List.map_cons, observed_handle_congr h, ih hnext,
      supply_handle_congr h]

theorem observed_run (settings : Settings) (i : Improver) (s : Supply) (rs : List Request) :
    (i.run settings s rs).map Step.observed = (i.runFresh settings s rs).map Step.observed := by
  induction rs generalizing s with
  | nil => rfl
  | cons r rs ih =>
    -- The run goes on with what the request made of the improver, the fresh copies with the first.
    rw [run_cons, List.map_cons, observed_runFresh_cons,
      observed_run_congr (equipped_handle settings i s r), ih]

end Improver

/-! ### A request in the middle of a run -/

/-- What is asked and spent for a request, and who is taken up for it, where `held` is what the
requests before it have left. -/
structure Accounted (settings : Settings) (i : Improver) (before : List Request) (r : Request)
    (held : Improver × Supply) : Prop where
  inquiry : (held.1.handle settings held.2 r).1.inquiry.size =
    if r.IsOpen settings.minLength ∧ (i.reviser.isSome = true ∨ i.useModel = true) then 1 else 0
  supply : (held.1.handle settings held.2 r).2.2 =
    (i.asked settings r).elim held.2 fun reviser => reviser.spend held.2
  size : (held.1.handle settings held.2 r).2.2.size +
    min (held.1.handle settings held.2 r).1.inquiry.size
      ((i.equipped settings).reviser.elim 0 fun reviser => reviser.stock held.2) = held.2.size
  reviser_ne_iff : (held.1.handle settings held.2 r).2.1.reviser ≠ held.1.reviser ↔
    i.reviser = none ∧ i.useModel = true ∧ r.IsOpen settings.minLength ∧
      ∀ q ∈ before, ¬ q.IsOpen settings.minLength
  reviser_of_ne : (held.1.handle settings held.2 r).2.1.reviser ≠ held.1.reviser →
    held.1.reviser = none ∧
      (held.1.handle settings held.2 r).2.1.reviser = some (.chat (.ofSettings settings))

namespace Improver

/-- A model is taken up for an open request before which there was none. -/
theorem reviser_ne_iff_of_after (settings : Settings) (i : Improver) (s : Supply)
    (before : List Request) (r : Request) :
    let held := i.after settings s before
    (held.1.handle settings held.2 r).2.1.reviser ≠ held.1.reviser ↔
      i.reviser = none ∧ i.useModel = true ∧ r.IsOpen settings.minLength ∧
        ∀ q ∈ before, ¬ q.IsOpen settings.minLength := by
  intro held
  have hheld : held.1 = _ := improver_after settings i s before
  by_cases hbefore : ∃ q ∈ before, q.IsOpen settings.minLength
  · rw [if_pos hbefore] at hheld
    obtain ⟨q, hq, hopen⟩ := hbefore
    rw [improver_handle, hheld, equipped_equipped, ite_self]
    exact iff_of_false (fun hne => hne rfl) fun hfirst => hfirst.2.2.2 q hq hopen
  · rw [if_neg hbefore] at hheld
    have hnone : ∀ q ∈ before, ¬ q.IsOpen settings.minLength := fun q hq hopen =>
      hbefore ⟨q, hq, hopen⟩
    rw [improver_handle, hheld]
    by_cases hr : r.IsOpen settings.minLength
    · rw [if_pos hr, reviser_equipped_ne_iff]
      exact ⟨fun h => ⟨h.1, h.2, hr, hnone⟩, fun h => ⟨h.1, h.2.1⟩⟩
    · rw [if_neg hr]
      exact iff_of_false (fun hne => hne rfl) fun h => hr h.2.2.1

theorem accounted_after (settings : Settings) (i : Improver) (s : Supply) (before : List Request)
    (r : Request) : Accounted settings i before r (i.after settings s before) where
  inquiry := by
    rw [size_inquiry_handle, asked_congr (equipped_after settings i s before)]
    simp only [isSome_asked]
  supply := by rw [supply_handle, asked_congr (equipped_after settings i s before)]
  size := by
    rw [← equipped_after settings i s before]
    exact size_supply_handle settings _ _ r
  reviser_ne_iff := reviser_ne_iff_of_after settings i s before r
  reviser_of_ne hne := by
    have hopen : r.IsOpen settings.minLength :=
      ((reviser_ne_iff_of_after settings i s before r).1 hne).2.2.1
    rw [improver_handle, if_pos hopen] at hne ⊢
    obtain ⟨hnone, huse⟩ := reviser_equipped_ne_iff.1 hne
    refine ⟨hnone, ?_⟩
    rw [reviser_equipped, hnone, huse]
    rfl

/-- A run looks as if there were a fresh improver for each request, also behind one that failed:
what follows a request depends on it through the supply alone. -/
theorem observed_run_eq_runFresh (settings : Settings) (i : Improver) (s : Supply) :
    (∀ rs, (i.run settings s rs).map Step.observed =
        (i.runFresh settings s rs).map Step.observed) ∧
      ∀ before r later,
        let held := i.after settings s before
        let call := held.1.handle settings held.2 r
        (i.run settings s (before ++ r :: later)).map Step.observed =
            (i.run settings s before).map Step.observed ++ call.1.observed ::
              (i.runFresh settings call.2.2 later).map Step.observed ∧
          Accounted settings i before r held := by
  refine ⟨observed_run settings i s, ?_⟩
  intro before r later held call
  refine ⟨?_, accounted_after settings i s before r⟩
  have hequipped : call.2.1.equipped settings = i.equipped settings := by
    rw [equipped_handle, equipped_after]
  rw [run_append, run_cons, List.map_append, List.map_cons, observed_run_congr hequipped,
    observed_run _ _ _ later]

end Improver

end FlowDiagram.Repair
