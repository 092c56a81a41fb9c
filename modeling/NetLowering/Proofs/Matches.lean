import NetLowering.Proofs.Checked

/-!
# Runs that are refused together

Two runs match if both are refused, for whatever causes, or both lead to related
results.  There is one law for each way in which runs are put together, so runs that
differ only in what they blame, or in the order of steps that commute, are compared
step by step.
-/

namespace NetLowering.Checked

variable {ε ε' α β γ δ σ τ ι κ : Type} {R : α → β → Prop}

/-- Both runs are refused, for whatever causes, or both lead to related results. -/
inductive Matches (R : α → β → Prop) : Except ε α → Except ε' β → Prop
  | refused (error : ε) (other : ε') : Matches R (.error error) (.error other)
  | done {first : α} {second : β} (related : R first second) : Matches R (.ok first) (.ok second)

@[simp] theorem matches_ok_iff {first : α} {second : β} :
    Matches R (.ok first : Except ε α) (.ok second : Except ε' β) ↔ R first second := by
  constructor
  · rintro (_ | hrelated)
    exact hrelated
  · exact .done

theorem Matches.exists_ok_iff {first : Except ε α} {second : Except ε' β}
    (hmatches : Matches R first second) :
    (∃ right, second = .ok right) ↔ ∃ left, first = .ok left := by
  cases hmatches <;> simp

/-- Runs that are accepted together match if their results are related. -/
theorem matches_of_exists_ok_iff {first : Except ε α} {second : Except ε' β}
    (haccepts : (∃ right, second = .ok right) ↔ ∃ left, first = .ok left)
    (hresults : ∀ left right, first = .ok left → second = .ok right → R left right) :
    Matches R first second := by
  cases first with
  | ok left =>
      obtain ⟨right, rfl⟩ := haccepts.mpr ⟨left, rfl⟩
      exact .done (hresults left right rfl rfl)
  | error error =>
      cases second with
      | ok right => cases (haccepts.mp ⟨right, rfl⟩).choose_spec
      | error other => exact .refused error other

/-- Two steps that check something and then lead to a fixed result. -/
theorem matches_of_accepts {accepts accepts' : Prop} {left : α} {right : β} {first : Except ε α}
    {second : Except ε' β} (hfirst : ∀ result, first = .ok result ↔ accepts ∧ result = left)
    (hsecond : ∀ result, second = .ok result ↔ accepts' ∧ result = right)
    (haccepts : accepts' ↔ accepts) (hrelated : R left right) : Matches R first second := by
  refine matches_of_exists_ok_iff (by simp [hfirst, hsecond, haccepts]) ?_
  intro _ _ hleft hright
  rw [((hfirst _).mp hleft).2, ((hsecond _).mp hright).2]
  exact hrelated

/-! ## Runs with the same result -/

theorem matches_self (outcome : Except ε α) : Matches Eq outcome outcome := by
  cases outcome with
  | error error => exact .refused error error
  | ok value => exact .done rfl

theorem matches_eq_of_ok_iff {first : Except ε α} {second : Except ε' α}
    (hsame : ∀ value, first = .ok value ↔ second = .ok value) : Matches Eq first second := by
  refine matches_of_exists_ok_iff (exists_congr fun value => (hsame value).symm) ?_
  intro left right hleft hright
  cases hright.symm.trans ((hsame left).mp hleft)
  rfl

theorem Matches.ok_iff_of_eq {first : Except ε α} {second : Except ε' α}
    (hmatches : Matches Eq first second) (value : α) : second = .ok value ↔ first = .ok value := by
  cases hmatches with
  | refused error other => simp
  | done hsame => simp [hsame]

theorem Matches.trans_eq {ε'' : Type} {first : Except ε α} {second : Except ε' α}
    {third : Except ε'' α} (hfirst : Matches Eq first second) (hsecond : Matches Eq second third) :
    Matches Eq first third :=
  matches_eq_of_ok_iff fun value => (hfirst.ok_iff_of_eq value).symm.trans
    (hsecond.ok_iff_of_eq value).symm

/-! ## Runs that are put together -/

theorem Matches.bind {S : γ → δ → Prop} {first : Except ε α} {second : Except ε' β}
    {next : α → Except ε γ} {other : β → Except ε' δ} (hfirst : Matches R first second)
    (hnext : ∀ left right, R left right → Matches S (next left) (other right)) :
    Matches S (first >>= next) (second >>= other) := by
  cases hfirst with
  | refused error other => exact .refused error other
  | done hrelated => exact hnext _ _ hrelated

theorem Matches.bind_eq {S : γ → δ → Prop} {first : Except ε α} {second : Except ε' α}
    {next : α → Except ε γ} {other : α → Except ε' δ} (hfirst : Matches Eq first second)
    (hnext : ∀ value, Matches S (next value) (other value)) :
    Matches S (first >>= next) (second >>= other) :=
  hfirst.bind fun value _ hsame => hsame ▸ hnext value

theorem Matches.mapError {ε₁ ε₂ : Type} {first : Except ε₁ α} {second : Except ε₂ β} {f : ε₁ → ε}
    {g : ε₂ → ε'} (hmatches : Matches R first second) :
    Matches R (first.mapError f) (second.mapError g) := by
  cases hmatches with
  | refused error other => exact .refused (f error) (g other)
  | done hrelated => exact .done hrelated

theorem matches_ite {condition : Prop} [Decidable condition] {first rest : Except ε α}
    {second others : Except ε' β} (hthen : condition → Matches R first second)
    (helse : ¬condition → Matches R rest others) :
    Matches R (if condition then first else rest) (if condition then second else others) := by
  by_cases hcondition : condition
  · rw [if_pos hcondition, if_pos hcondition]
    exact hthen hcondition
  · rw [if_neg hcondition, if_neg hcondition]
    exact helse hcondition

theorem forall₂_map_self (f : ι → κ) (items : List ι) :
    List.Forall₂ (fun item partner => partner = f item) items (items.map f) := by
  rw [List.forall₂_map_right_iff, List.forall₂_same]
  exact fun _ _ => rfl

theorem Matches.foldlM {S : σ → τ → Prop} {L : ι → κ → Prop} {step : σ → ι → Except ε σ}
    {other : τ → κ → Except ε' τ}
    (hstep : ∀ left right item partner, S left right → L item partner →
      Matches S (step left item) (other right partner))
    {items : List ι} {partners : List κ} (hitems : List.Forall₂ L items partners) {first : σ}
    {second : τ} (hstart : S first second) :
    Matches S (items.foldlM step first) (partners.foldlM other second) := by
  induction hitems generalizing first second with
  | nil => exact .done hstart
  | @cons item partner items partners hitem _ ih =>
      rw [List.foldlM_cons, List.foldlM_cons]
      exact (hstep first second item partner hstart hitem).bind fun _ _ => ih

theorem Matches.mapM {L : ι → κ → Prop} {read : ι → Except ε α} {other : κ → Except ε' β}
    (hread : ∀ item partner, L item partner → Matches R (read item) (other partner))
    {items : List ι} {partners : List κ} (hitems : List.Forall₂ L items partners) :
    Matches (List.Forall₂ R) (items.mapM read) (partners.mapM other) := by
  induction hitems with
  | nil => exact .done .nil
  | @cons item partner items partners hitem _ ih =>
      rw [List.mapM_cons, List.mapM_cons]
      exact (hread item partner hitem).bind fun _ _ hfirst =>
        ih.bind fun _ _ hrest => .done (.cons hfirst hrest)

/-! ## Results that are a function of others -/

/-- The second run leads to what `f` makes of the result of the first one. -/
abbrev Maps (f : α → β) : Except ε α → Except ε' β → Prop :=
  Matches fun left right => right = f left

theorem Maps.bind {f : α → β} {S : γ → δ → Prop} {first : Except ε α} {second : Except ε' β}
    {next : α → Except ε γ} {other : β → Except ε' δ} (hfirst : Maps f first second)
    (hnext : ∀ value, Matches S (next value) (other (f value))) :
    Matches S (first >>= next) (second >>= other) :=
  Matches.bind hfirst fun value _ hmapped => hmapped ▸ hnext value

theorem maps_iff_toOption {f : α → β} {first : Except ε α} {second : Except ε' β} :
    Maps f first second ↔ second.toOption = first.toOption.map f := by
  constructor
  · rintro (_ | rfl) <;> rfl
  · intro hsame
    cases first <;> cases second <;> cases hsame
    · exact .refused _ _
    · exact .done rfl

/-! ## Permuted runs -/

/-- What is read and taken in item by item can be taken in in any order, if any two different items
can. -/
theorem matches_foldlM_of_perm (read : ι → Except ε α) (put : σ → ι → α → σ) {items others : List ι}
    (hperm : items.Perm others)
    (hput : ∀ first ∈ items, ∀ second ∈ items, first ≠ second → ∀ state left right,
      put (put state first left) second right = put (put state second right) first left)
    (start : σ) :
    Matches Eq
      (items.foldlM (fun state item => do
        let value ← read item
        return put state item value) start)
      (others.foldlM (fun state item => do
        let value ← read item
        return put state item value) start) := by
  induction hperm generalizing start with
  | nil => exact .done rfl
  | cons item _ ih =>
      rw [List.foldlM_cons, List.foldlM_cons]
      refine (matches_self _).bind_eq fun next => ih (fun first hfirst second hsecond => ?_) next
      exact hput first (List.mem_cons_of_mem _ hfirst) second (List.mem_cons_of_mem _ hsecond)
  | swap second first rest =>
      by_cases hsame : first = second
      · rw [hsame]
        exact matches_self _
      · simp only [List.foldlM_cons]
        -- Whichever of the two is refused, the run is refused in both orders.
        cases read first with
        | error error => cases read second <;> exact .refused _ _
        | ok left =>
            cases read second with
            | error error => exact .refused _ _
            | ok right =>
                simp only [ok_bind, pure_eq_ok]
                rw [hput first (by simp) second (by simp) hsame]
                exact matches_self _
  | trans hfirst _ ihFirst ihSecond =>
      refine (ihFirst hput start).trans_eq (ihSecond (fun first hleft second hright => ?_) start)
      exact hput first (hfirst.mem_iff.mpr hleft) second (hfirst.mem_iff.mpr hright)

end NetLowering.Checked
