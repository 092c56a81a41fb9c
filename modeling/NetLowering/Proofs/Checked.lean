import Mathlib.Data.List.Forall2
import NetLowering.Table

/-!
# Checked steps

A step that may be refused has a result in `Except`.  A run of such steps that
is not refused consists of steps none of which is refused, so what every single
step preserves holds after the run.  Two runs whose steps are related, step by
step, end alike: `Related` says so of refusals and of results, and `Follows` of
results only.  `Blames` says what a run is refused for.
-/

namespace NetLowering.Checked

variable {ε ε' α β σ ι : Type}

@[simp] theorem ok_bind (value : α) (next : α → Except ε β) :
    ((.ok value : Except ε α) >>= next) = next value := rfl

@[simp] theorem error_bind (error : ε) (next : α → Except ε β) :
    ((.error error : Except ε α) >>= next) = .error error := rfl

@[simp] theorem throw_bind (error : ε) (next : α → Except ε β) :
    ((throw error : Except ε α) >>= next) = .error error := rfl

theorem pure_eq_ok (value : α) : (pure value : Except ε α) = .ok value := rfl

theorem bind_eq_ok_iff {first : Except ε α} {next : α → Except ε β} {result : β} :
    (first >>= next) = .ok result ↔
      ∃ value, first = .ok value ∧ next value = .ok result := by
  cases first <;> simp [bind, Except.bind]

theorem map_eq_ok_iff {first : Except ε α} {f : α → β} {result : β} :
    f <$> first = .ok result ↔ ∃ value, first = .ok value ∧ f value = result := by
  cases first <;> simp [Functor.map, Except.map]

theorem mapError_eq_ok_iff {outcome : Except ε α} {f : ε → ε'} {result : α} :
    outcome.mapError f = .ok result ↔ outcome = .ok result := by
  cases outcome <;> simp [Except.mapError]

theorem toOption_eq_some_iff {outcome : Except ε α} {result : α} :
    outcome.toOption = some result ↔ outcome = .ok result := by
  cases outcome <;> simp [Except.toOption]

theorem pure_eq_ok_iff {value result : α} :
    (pure value : Except ε α) = .ok result ↔ result = value := by
  simp [pure, Except.pure, eq_comm]

theorem check_eq_ok_iff {condition : Prop} [Decidable condition] {error : ε}
    {next : α → Except ε β} {rest : Except ε β} {result : β} :
    (if condition then throw error >>= next else rest) = .ok result ↔
      ¬condition ∧ rest = .ok result := by
  by_cases hcondition : condition
  · simp [hcondition, bind, Except.bind, throw, throwThe, MonadExceptOf.throw]
  · simp [hcondition]

theorem foldlM_preserves {step : σ → α → Except ε σ} {Holds : σ → Prop}
    {items : List α} {start final : σ}
    (hstep : ∀ state item next, item ∈ items → Holds state →
      step state item = .ok next → Holds next)
    (hstart : Holds start) (hrun : items.foldlM step start = .ok final) :
    Holds final := by
  induction items generalizing start with
  | nil =>
      rw [List.foldlM_nil, pure_eq_ok_iff] at hrun
      exact hrun ▸ hstart
  | cons item items ih =>
      rw [List.foldlM_cons, bind_eq_ok_iff] at hrun
      obtain ⟨next, hfirst, hrest⟩ := hrun
      have hnext : Holds next := hstep start item next (by simp) hstart hfirst
      apply ih _ hnext hrest
      intro state later after hlater
      exact hstep state later after (by simp [hlater])

/-- What every step carries on from the items done so far holds of all of them in the end. -/
theorem foldlM_follows (Holds : List α → σ → Prop) {step : σ → α → Except ε σ}
    {items : List α} {start final : σ}
    (hstep : ∀ done state item next, Holds done state → step state item = .ok next →
      Holds (done ++ [item]) next)
    (hstart : Holds [] start) (hrun : items.foldlM step start = .ok final) :
    Holds items final := by
  suffices hrest : ∀ done, Holds done start → Holds (done ++ items) final from hrest [] hstart
  clear hstart
  induction items generalizing start with
  | nil =>
      rw [List.foldlM_nil, pure_eq_ok_iff] at hrun
      intro done hdone
      simpa [hrun] using hdone
  | cons item items ih =>
      rw [List.foldlM_cons, bind_eq_ok_iff] at hrun
      obtain ⟨next, hfirst, hrest⟩ := hrun
      intro done hdone
      rw [List.append_cons]
      exact ih hrest (done ++ [item]) (hstep done start item next hdone hfirst)

/-- A run has a moment for each of its items, between what comes before it and what comes after. -/
theorem exists_moment {step : σ → α → Except ε σ} {items : List α} {start final : σ} {item : α}
    (hrun : items.foldlM step start = .ok final) (hitem : item ∈ items) :
    ∃ done rest before after, items = done ++ item :: rest ∧
      done.foldlM step start = .ok before ∧ step before item = .ok after ∧
      rest.foldlM step after = .ok final := by
  obtain ⟨done, rest, rfl⟩ := List.append_of_mem hitem
  rw [List.foldlM_append, bind_eq_ok_iff] at hrun
  obtain ⟨before, hdone, hrest⟩ := hrun
  rw [List.foldlM_cons, bind_eq_ok_iff] at hrest
  obtain ⟨after, hstep, hrest⟩ := hrest
  exact ⟨done, rest, before, after, rfl, hdone, hstep, hrest⟩

/-- The moments of a history with one more item are the new one and those there were before. -/
theorem concat_eq_moment_iff {items before later : List α} {last item : α} :
    items ++ [last] = before ++ item :: later ↔
      (items = before ∧ last = item ∧ later = []) ∨
        ∃ rest, later = rest ++ [last] ∧ items = before ++ item :: rest := by
  constructor
  · intro hitems
    rcases List.eq_nil_or_concat' later with rfl | ⟨rest, final, rfl⟩
    · obtain ⟨hbefore, hlast⟩ := List.append_singleton_inj.mp hitems
      exact .inl ⟨hbefore, hlast, rfl⟩
    · rw [← List.cons_append, ← List.append_assoc, List.append_singleton_inj] at hitems
      obtain ⟨hrest, rfl⟩ := hitems
      exact .inr ⟨rest, rfl, hrest⟩
  · rintro (⟨rfl, rfl, rfl⟩ | ⟨rest, rfl, rfl⟩)
    · rfl
    · simp

theorem exists_of_mapM {read : α → Except ε β} {items : List α} {results : List β}
    (hread : items.mapM read = .ok results) {item : α} (hitem : item ∈ items) :
    ∃ result ∈ results, read item = .ok result := by
  induction items generalizing results with
  | nil => cases hitem
  | cons first items ih =>
      simp only [List.mapM_cons, bind_eq_ok_iff, pure_eq_ok_iff] at hread
      obtain ⟨result, hfirst, rest, hrest, rfl⟩ := hread
      rcases List.mem_cons.mp hitem with rfl | hlater
      · exact ⟨result, by simp, hfirst⟩
      · obtain ⟨found, hfound, hresult⟩ := ih hrest hlater
        exact ⟨found, List.mem_cons_of_mem _ hfound, hresult⟩

/-! ## Which runs are accepted -/

theorem exists_bind_ok_iff {first : Except ε α} {next : α → Except ε β} :
    (∃ result, (first >>= next) = .ok result) ↔
      ∃ value, first = .ok value ∧ ∃ result, next value = .ok result := by
  cases first <;> simp

theorem exists_map_ok_iff {first : Except ε α} {f : α → β} :
    (∃ result, f <$> first = .ok result) ↔ ∃ value, first = .ok value := by
  simp [map_eq_ok_iff]

theorem mapM_eq_ok_iff {read : α → Except ε β} {items : List α} {results : List β} :
    items.mapM read = .ok results ↔
      List.Forall₂ (fun item result => read item = .ok result) items results := by
  induction items generalizing results with
  | nil => simp [pure_eq_ok_iff]
  | cons item items ih =>
      simp only [List.mapM_cons, bind_eq_ok_iff, pure_eq_ok_iff, ih, List.forall₂_cons_left_iff]
      simp only [exists_and_left]

theorem exists_read_of_mapM {read : α → Except ε β} {items : List α} {results : List β}
    (hread : items.mapM read = .ok results) {result : β} (hresult : result ∈ results) :
    ∃ item ∈ items, read item = .ok result := by
  rw [mapM_eq_ok_iff] at hread
  induction hread with
  | nil => cases hresult
  | @cons item first items results hfirst _ ih =>
      rcases List.mem_cons.mp hresult with rfl | hlater
      · exact ⟨item, List.mem_cons_self, hfirst⟩
      · obtain ⟨found, hfound, hread⟩ := ih hlater
        exact ⟨found, List.mem_cons_of_mem _ hfound, hread⟩

theorem exists_mapM_ok_iff {read : α → Except ε β} {items : List α} :
    (∃ results, items.mapM read = .ok results) ↔
      ∀ item ∈ items, ∃ result, read item = .ok result := by
  induction items with
  | nil => simp [pure_eq_ok_iff]
  | cons item items ih =>
      simp only [List.mapM_cons, exists_bind_ok_iff, List.forall_mem_cons, ← ih, pure_eq_ok_iff]
      simp

theorem map_eq_error_iff {first : Except ε α} {f : α → β} {error : ε} :
    f <$> first = .error error ↔ first = .error error := by
  cases first <;> simp [Functor.map, Except.map]

/-- A reading is refused for the first item that cannot be read. -/
theorem mapM_eq_error_iff {read : α → Except ε β} {items : List α} {error : ε} :
    items.mapM read = .error error ↔
      ∃ before item after, items = before ++ item :: after ∧
        (∀ earlier ∈ before, ∃ result, read earlier = .ok result) ∧ read item = .error error := by
  induction items with
  | nil => simp [pure_eq_ok]
  | cons first items ih =>
      rw [List.mapM_cons]
      cases hfirst : read first with
      | error refused =>
          rw [error_bind]
          constructor
          · rintro ⟨⟩
            exact ⟨[], first, items, rfl, by simp, hfirst⟩
          · rintro ⟨_ | ⟨head, before⟩, item, after, hitems, hbefore, hitem⟩
            · cases hitems
              rw [Except.error.inj (hfirst.symm.trans hitem)]
            · cases hitems
              obtain ⟨result, hresult⟩ := hbefore first List.mem_cons_self
              cases hfirst.symm.trans hresult
      | ok result =>
          rw [ok_bind, ← map_eq_pure_bind, map_eq_error_iff, ih]
          constructor
          · rintro ⟨before, item, after, rfl, hbefore, hitem⟩
            refine ⟨first :: before, item, after, rfl, ?_, hitem⟩
            exact List.forall_mem_cons.mpr ⟨⟨result, hfirst⟩, hbefore⟩
          · rintro ⟨_ | ⟨head, before⟩, item, after, hitems, hbefore, hitem⟩
            · cases hitems
              cases hfirst.symm.trans hitem
            · cases hitems
              exact ⟨before, item, after, rfl, (List.forall_mem_cons.mp hbefore).2, hitem⟩

/-- A run that can only be refused over what it reads reads all of it and then takes it in. -/
theorem foldlM_read (read : ι → Except ε α) (put : σ → ι → α → σ) (items : List ι) (start : σ) :
    items.foldlM (fun state item => do
        let value ← read item
        return put state item value) start =
      (fun values => (items.zip values).foldl (fun state pair => put state pair.1 pair.2) start) <$>
        items.mapM read := by
  induction items generalizing start with
  | nil => rfl
  | cons item items ih =>
      rw [List.foldlM_cons, List.mapM_cons]
      cases read item with
      | error error => rfl
      | ok value =>
          refine (ih (put start item value)).trans ?_
          cases items.mapM read <;> rfl

/-! ## What runs are refused for -/

section Blames

variable {Kind : ε → Prop}

/-- Whatever the run is refused for is of this kind. -/
def Blames (Kind : ε → Prop) (outcome : Except ε α) : Prop :=
  ∀ error, outcome = .error error → Kind error

@[simp] theorem blames_ok (value : α) : Blames Kind (.ok value : Except ε α) := by
  rintro error ⟨⟩

@[simp] theorem blames_pure (value : α) : Blames Kind (pure value : Except ε α) := blames_ok value

@[simp] theorem blames_error_iff {error : ε} :
    Blames Kind (.error error : Except ε α) ↔ Kind error := by
  simp [Blames]

@[simp] theorem blames_throw_iff {error : ε} :
    Blames Kind (throw error : Except ε α) ↔ Kind error := blames_error_iff

@[simp] theorem blames_bind_iff {first : Except ε α} {next : α → Except ε β} :
    Blames Kind (first >>= next) ↔
      Blames Kind first ∧ ∀ value, first = .ok value → Blames Kind (next value) := by
  cases first <;> simp

@[simp] theorem blames_map_iff {outcome : Except ε α} {f : α → β} :
    Blames Kind (f <$> outcome) ↔ Blames Kind outcome := by
  cases outcome <;> simp [Functor.map, Except.map]

theorem blames_mapError {outcome : Except ε' α} {f : ε' → ε}
    (hkind : ∀ error, Kind (f error)) : Blames Kind (outcome.mapError f) := by
  cases outcome <;> simp [Except.mapError, hkind]

theorem blames_foldlM {step : σ → α → Except ε σ} (Holds : σ → Prop) {items : List α} {start : σ}
    (hstep : ∀ state item, item ∈ items → Holds state → Blames Kind (step state item) ∧
      ∀ next, step state item = .ok next → Holds next)
    (hstart : Holds start) : Blames Kind (items.foldlM step start) := by
  induction items generalizing start with
  | nil => exact blames_pure start
  | cons item items ih =>
      obtain ⟨hfirst, hkept⟩ := hstep start item List.mem_cons_self hstart
      rw [List.foldlM_cons, blames_bind_iff]
      refine ⟨hfirst, fun next hnext => ih ?_ (hkept next hnext)⟩
      exact fun state later hlater => hstep state later (List.mem_cons_of_mem _ hlater)

end Blames

/-! ## Two runs -/

section Related

variable {γ δ τ κ : Type}

/-- Two runs that are refused for the same cause or lead to related results. -/
inductive Related (R : α → β → Prop) : Except ε α → Except ε β → Prop
  | refused (error : ε) : Related R (.error error) (.error error)
  | done {first : α} {second : β} (related : R first second) : Related R (.ok first) (.ok second)

variable {R : α → β → Prop}

theorem Related.bind {S : γ → δ → Prop} {first : Except ε α} {second : Except ε β}
    {next : α → Except ε γ} {other : β → Except ε δ} (hfirst : Related R first second)
    (hnext : ∀ left right, R left right → Related S (next left) (other right)) :
    Related S (first >>= next) (second >>= other) := by
  cases hfirst with
  | refused error => exact .refused error
  | done hrelated => exact hnext _ _ hrelated

theorem related_self (outcome : Except ε α) : Related Eq outcome outcome := by
  cases outcome with
  | error error => exact .refused error
  | ok value => exact .done rfl

theorem related_map (outcome : Except ε α) {f : α → β} (hrelated : ∀ value, R value (f value)) :
    Related R outcome (outcome.map f) := by
  cases outcome with
  | error error => exact .refused error
  | ok value => exact .done (hrelated value)

theorem related_foldlM {S : σ → τ → Prop} {step : σ → ι → Except ε σ} {other : τ → ι → Except ε τ}
    (hstep : ∀ left right item, S left right → Related S (step left item) (other right item))
    {first : σ} {second : τ} (hstart : S first second) (items : List ι) :
    Related S (items.foldlM step first) (items.foldlM other second) := by
  induction items generalizing first second with
  | nil => exact .done hstart
  | cons item items ih =>
      rw [List.foldlM_cons, List.foldlM_cons]
      exact (hstep first second item hstart).bind fun _ _ => ih

theorem related_mapM {read : ι → Except ε α} {other : ι → Except ε β}
    (hread : ∀ item, Related R (read item) (other item)) (items : List ι) :
    Related (List.Forall₂ R) (items.mapM read) (items.mapM other) := by
  induction items with
  | nil => exact .done .nil
  | cons item items ih =>
      rw [List.mapM_cons, List.mapM_cons]
      exact (hread item).bind fun _ _ hfirst => ih.bind fun _ _ hrest => .done (.cons hfirst hrest)

/-- If the first run is not refused, the second one is not either, and their results are related. -/
def Follows (R : α → β → Prop) (first : Except ε α) (second : Except ε β) : Prop :=
  ∀ result, first = .ok result → ∃ other, second = .ok other ∧ R result other

theorem follows_ok {first : α} {second : β} (hrelated : R first second) :
    Follows R (.ok first : Except ε α) (.ok second) := by
  rintro _ ⟨⟩
  exact ⟨second, rfl, hrelated⟩

theorem follows_refused (error : ε) (second : Except ε β) :
    Follows R (.error error : Except ε α) second := by
  rintro _ ⟨⟩

theorem Follows.bind {S : γ → δ → Prop} {first : Except ε α} {second : Except ε β}
    {next : α → Except ε γ} {other : β → Except ε δ} (hfirst : Follows R first second)
    (hnext : ∀ left right, R left right → Follows S (next left) (other right)) :
    Follows S (first >>= next) (second >>= other) := by
  intro result hresult
  obtain ⟨left, hleft, hresult⟩ := bind_eq_ok_iff.mp hresult
  obtain ⟨right, hright, hrelated⟩ := hfirst left hleft
  obtain ⟨found, hfound, hresults⟩ := hnext left right hrelated result hresult
  exact ⟨found, bind_eq_ok_iff.mpr ⟨right, hright, hfound⟩, hresults⟩

/-- Both runs begin alike. -/
theorem follows_bind_same {S : γ → δ → Prop} {outcome : Except ε α} {next : α → Except ε γ}
    {other : α → Except ε δ} (hnext : ∀ value, Follows S (next value) (other value)) :
    Follows S (outcome >>= next) (outcome >>= other) := by
  cases outcome with
  | error error => exact follows_refused error _
  | ok value => exact hnext value

theorem follows_ite {condition : Prop} [Decidable condition] {first rest : Except ε α}
    {second others : Except ε β} (hthen : condition → Follows R first second)
    (helse : ¬condition → Follows R rest others) :
    Follows R (if condition then first else rest) (if condition then second else others) := by
  by_cases hcondition : condition
  · rw [if_pos hcondition, if_pos hcondition]
    exact hthen hcondition
  · rw [if_neg hcondition, if_neg hcondition]
    exact helse hcondition

theorem Follows.mapError {first : Except ε' α} {second : Except ε' β} {f g : ε' → ε}
    (hfollows : Follows R first second) : Follows R (first.mapError f) (second.mapError g) := by
  intro result hresult
  obtain ⟨other, hother, hrelated⟩ := hfollows result (mapError_eq_ok_iff.mp hresult)
  exact ⟨other, mapError_eq_ok_iff.mpr hother, hrelated⟩

theorem Follows.foldlM {S : σ → τ → Prop} {L : ι → κ → Prop} {step : σ → ι → Except ε σ}
    {other : τ → κ → Except ε τ}
    (hstep : ∀ left right item partner, S left right → L item partner →
      Follows S (step left item) (other right partner))
    {items : List ι} {partners : List κ} (hitems : List.Forall₂ L items partners) {first : σ}
    {second : τ} (hstart : S first second) :
    Follows S (items.foldlM step first) (partners.foldlM other second) := by
  induction hitems generalizing first second with
  | nil => exact follows_ok hstart
  | @cons item partner items partners hitem _ ih =>
      rw [List.foldlM_cons, List.foldlM_cons]
      exact (hstep first second item partner hstart hitem).bind fun _ _ => ih

end Related

end NetLowering.Checked
