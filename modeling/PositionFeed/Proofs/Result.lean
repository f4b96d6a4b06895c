namespace PositionFeed

/-!
# Steps that may fail

What is known when steps that may fail came to an end: each of them did.  When
they failed, one of them did, and those before it came to an end.
-/

namespace Result

theorem bind_eq_ok_iff
    {first : Except ε α}
    {second : α → Except ε β}
    {result : β} :
    (first >>= second) = .ok result ↔
      ∃ value, first = .ok value ∧ second value = .ok result := by
  cases first with
  | error fault =>
      constructor
      · intro ended
        cases ended
      · rintro ⟨_, ended, _⟩
        cases ended
  | ok value =>
      constructor
      · intro ended
        exact ⟨value, rfl, ended⟩
      · rintro ⟨_, same, ended⟩
        cases same
        exact ended

/-- Of steps that failed the first did, or it came to an end and the other
did. -/
theorem bind_eq_error_iff
    {first : Except ε α}
    {second : α → Except ε β}
    {fault : ε} :
    (first >>= second) = .error fault ↔
      first = .error fault ∨
        ∃ value, first = .ok value ∧ second value = .error fault := by
  cases first with
  | error reason =>
      constructor
      · intro failed
        cases failed
        exact .inl rfl
      · rintro (failed | ⟨_, ended, _⟩)
        · cases failed
          rfl
        · cases ended
  | ok value =>
      constructor
      · intro failed
        exact .inr ⟨value, rfl, failed⟩
      · rintro (failed | ⟨_, same, failed⟩)
        · cases failed
        · cases same
          exact failed

theorem map_eq_ok_iff
    {step : Except ε α}
    {change : α → β}
    {result : β} :
    step.map change = .ok result ↔
      ∃ value, step = .ok value ∧ change value = result := by
  cases step with
  | error fault =>
      constructor
      · intro ended
        cases ended
      · rintro ⟨_, ended, _⟩
        cases ended
  | ok value =>
      constructor
      · intro ended
        exact ⟨value, rfl, Except.ok.inj ended⟩
      · rintro ⟨_, same, rfl⟩
        cases same
        rfl

theorem mapError_eq_ok_iff
    {step : Except ε α}
    {change : ε → δ}
    {result : α} :
    step.mapError change = .ok result ↔ step = .ok result := by
  constructor
  · intro ended
    cases step with
    | error fault =>
        cases ended
    | ok value =>
        cases ended
        rfl
  · rintro rfl
    rfl

theorem mapError_eq_error_iff
    {step : Except ε α}
    {change : ε → δ}
    {fault : δ} :
    step.mapError change = .error fault ↔
      ∃ reason, step = .error reason ∧ change reason = fault := by
  cases step with
  | error reason =>
      constructor
      · intro failed
        exact ⟨reason, rfl, Except.error.inj failed⟩
      · rintro ⟨_, same, rfl⟩
        cases same
        rfl
  | ok value =>
      constructor
      · intro failed
        cases failed
      · rintro ⟨_, ended, _⟩
        cases ended

/-- Of checks that are made in order, the first one that fails is reported. -/
theorem exists_first_of_forM
    {check : α → Except ε Unit}
    {items : List α}
    {fault : ε}
    (failed : forM items check = .error fault) :
    ∃ before item after,
      items = before ++ item :: after ∧
        (∀ earlier ∈ before, check earlier = .ok ()) ∧
        check item = .error fault := by
  induction items with
  | nil =>
      cases failed
  | cons item items inductionHypothesis =>
      rcases bind_eq_error_iff.mp failed with here | ⟨_, ended, later⟩
      · exact ⟨[], item, items, rfl, List.forall_mem_nil _, here⟩
      · obtain ⟨before, found, after, rfl, allowed, there⟩ :=
          inductionHypothesis later
        exact ⟨item :: before, found, after, rfl,
          List.forall_mem_cons.mpr ⟨ended, allowed⟩, there⟩

end Result

end PositionFeed
