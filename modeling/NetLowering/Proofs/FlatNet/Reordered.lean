import NetLowering.Proofs.FlatNet.Joinable
import NetLowering.Proofs.Matches

/-!
# Nets in another order

What a net states does not depend on where it states it.  The initializers can come
in any order, and so can the arguments of an operator as long as no two of them set
the same fact; in particular it does not matter where the order of the net stands
(`FlatNet.join_reordered`).
-/

namespace NetLowering

open Checked

/-! ## Reordered operators -/

namespace NetOperator

def labels (operator : NetOperator) : List String := operator.arguments.map Argument.label

/-- No two arguments have the same name. -/
def Distinct (operator : NetOperator) : Prop := operator.labels.Nodup

/-- No two arguments state the same fact of a tensor; one scale and a list of scales are the same
fact. -/
def DistinctFacts (operator : NetOperator) : Prop :=
  operator.Distinct ∧ ¬("Y_scale" ∈ operator.labels ∧ "Y_scales" ∈ operator.labels)

instance : DecidablePred Distinct := fun operator =>
  inferInstanceAs (Decidable operator.labels.Nodup)

instance : DecidablePred DistinctFacts := fun operator =>
  inferInstanceAs (Decidable (operator.Distinct ∧ _))

/-- The second operator is the first one, or the first one with its arguments in another order if
the order of them cannot matter. -/
inductive Reorders (Clear : NetOperator → Prop) (operator : NetOperator) : NetOperator → Prop
  | kept : Reorders Clear operator operator
  | permuted {arguments : List Argument} (clear : Clear operator)
      (perm : operator.arguments.Perm arguments) :
      Reorders Clear operator { operator with arguments }

namespace Reorders

variable {Clear : NetOperator → Prop} {operator other : NetOperator}

theorem outputs (hreorders : operator.Reorders Clear other) : other.outputs = operator.outputs := by
  cases hreorders <;> rfl

theorem mem_arguments_iff (hreorders : operator.Reorders Clear other) {argument : Argument} :
    argument ∈ other.arguments ↔ argument ∈ operator.arguments := by
  cases hreorders with
  | kept => rfl
  | permuted _ hperm => exact hperm.mem_iff.symm

theorem decodes_iff (hreorders : operator.Reorders Clear other) :
    other.Decodes ↔ operator.Decodes := by
  simp only [Decodes, hreorders.mem_arguments_iff]

end Reorders

def reversed (operator : NetOperator) : NetOperator :=
  { operator with arguments := operator.arguments.reverse }

theorem reorders_reversed {Clear : NetOperator → Prop} {operator : NetOperator}
    (hclear : Clear operator) : operator.Reorders Clear operator.reversed :=
  .permuted hclear (List.reverse_perm _).symm

end NetOperator

/-! ## Facts -/

attribute [ext] Tensor

namespace Tensor

theorem zeroPoint_learn (tensor : Tensor) (fact : String) (value : Value) :
    (tensor.learn fact value).zeroPoint =
      if fact = "Y_zero_point" then some value else tensor.zeroPoint := by
  unfold learn
  grind

theorem scale_learn (tensor : Tensor) (fact : String) (value : Value) :
    (tensor.learn fact value).scale =
      if fact = "Y_scale" ∨ fact = "Y_scales" then some value else tensor.scale := by
  unfold learn
  grind

theorem extra_learn (tensor : Tensor) (fact : String) (value : Value) :
    (tensor.learn fact value).extra =
      if fact ∈ ["shape", "values", "Y_zero_point", "Y_scale", "Y_scales"] then tensor.extra
      else tensor.extra.insert fact value := by
  unfold learn
  grind

theorem learn_comm {first second : String} (hdiffer : first ≠ second)
    (hscales : ¬((first = "Y_scale" ∨ first = "Y_scales") ∧
      (second = "Y_scale" ∨ second = "Y_scales")))
    (tensor : Tensor) (left right : Value) :
    (tensor.learn first left).learn second right =
      (tensor.learn second right).learn first left := by
  apply Tensor.ext
  · simp only [name_learn]
  · simp only [shape_learn]
    grind
  · simp only [values_learn]
    grind
  · simp only [zeroPoint_learn]
    grind
  · simp only [scale_learn]
    grind
  · simp only [extra_learn]
    split_ifs
    · rfl
    · rfl
    · rfl
    · exact Table.insert_comm hdiffer tensor.extra left right

end Tensor

namespace NetOperator.Reorders

variable {operator other : NetOperator}

theorem matches_stated (hreorders : operator.Reorders DistinctFacts other) :
    Matches Eq (Tensor.stated operator) (Tensor.stated other) := by
  cases hreorders with
  | kept => exact matches_self _
  | @permuted arguments hclear hperm =>
      rw [Tensor.stated, Tensor.stated]
      dsimp only
      split
      · refine matches_foldlM_of_perm Argument.value
          (fun (tensor : Tensor) argument value => tensor.learn argument.label value) hperm ?_ _
        intro first hfirst second hsecond hdiffer tensor left right
        have hlabels : first.label ≠ second.label := fun hsame =>
          hdiffer (List.inj_on_of_nodup_map hclear.1 hfirst hsecond hsame)
        refine Tensor.learn_comm hlabels ?_ tensor left right
        have hfirstLabel : first.label ∈ operator.labels := List.mem_map_of_mem hfirst
        have hsecondLabel : second.label ∈ operator.labels := List.mem_map_of_mem hsecond
        have hscales := hclear.2
        grind
      · exact .refused _ _

theorem matches_ofInitializer (hreorders : operator.Reorders DistinctFacts other)
    (options : LoadOptions) (layout : Layout) :
    Matches Eq (Tensor.ofInitializer options layout operator)
      (Tensor.ofInitializer options layout other) :=
  hreorders.matches_stated.bind_eq fun _ => matches_self _

theorem matches_ofOperator (hreorders : operator.Reorders Distinct other) (layout : Layout)
    (initializers : Table String Tensor) :
    Matches Eq (FlatOp.ofOperator layout initializers operator)
      (FlatOp.ofOperator layout initializers other) := by
  cases hreorders with
  | kept => exact matches_self _
  | permuted hclear hperm =>
      refine Matches.bind_eq ?_ fun _ => matches_self _
      refine matches_foldlM_of_perm (FlatOp.argumentValue layout)
        (fun (table : Table String Value) argument value => table.insert argument.label value)
        hperm ?_ ∅
      intro first hfirst second hsecond hdiffer table left right
      refine Table.insert_comm (fun hsame => hdiffer ?_) table left right
      exact List.inj_on_of_nodup_map hclear hfirst hsecond hsame

end NetOperator.Reorders

/-! ## Reordered nets -/

section Lists

variable {ι κ : Type} {L : ι → κ → Prop} {P : ι → Prop} {Q : κ → Prop} {items middle : List ι}
  {partners : List κ}

theorem exists_partner_iff (hperm : items.Perm middle) (hpartners : List.Forall₂ L middle partners)
    (hsame : ∀ item partner, L item partner → (Q partner ↔ P item)) :
    (∃ partner ∈ partners, Q partner) ↔ ∃ item ∈ items, P item := by
  simp only [hperm.mem_iff]
  clear hperm
  induction hpartners with
  | nil => simp
  | cons hpair _ ih => simp only [List.exists_mem_cons_iff, hsame _ _ hpair, ih]

theorem forall_partner_iff (hperm : items.Perm middle) (hpartners : List.Forall₂ L middle partners)
    (hsame : ∀ item partner, L item partner → (Q partner ↔ P item)) :
    (∀ partner ∈ partners, Q partner) ↔ ∀ item ∈ items, P item := by
  have hexists := exists_partner_iff (P := fun item => ¬P item) (Q := fun partner => ¬Q partner)
    hperm hpartners fun item partner hpair => not_congr (hsame item partner hpair)
  simpa using not_congr hexists

end Lists

namespace Net

variable {Clear : NetOperator → Prop} {net other : Net} {operators : List NetOperator}

theorem decodes_iff_of_reorders (hperm : net.operators.Perm operators)
    (hreorders : List.Forall₂ (NetOperator.Reorders Clear) operators other.operators) :
    other.Decodes ↔ net.Decodes :=
  forall_partner_iff hperm hreorders fun _ _ hoperator => hoperator.decodes_iff

theorem outputs_of_reorders {others : List NetOperator}
    (hreorders : List.Forall₂ (NetOperator.Reorders Clear) operators others) :
    others.flatMap (·.outputs) = operators.flatMap (·.outputs) := by
  induction hreorders with
  | nil => rfl
  | cons hoperator _ ih => rw [List.flatMap_cons, List.flatMap_cons, hoperator.outputs, ih]

theorem statesOrder_iff_of_reorders (hperm : net.operators.Perm operators)
    (hreorders : List.Forall₂ (NetOperator.Reorders Clear) operators other.operators)
    (order : String) : other.StatesOrder order ↔ net.StatesOrder order :=
  exists_partner_iff hperm hreorders fun _ _ hoperator => by
    simp only [hoperator.mem_arguments_iff]

/-- Which layout a net has is decided by what its orders are and not by where they stand. -/
theorem layout_eq_of_statesOrder {layout otherLayout : Layout} (hlayout : net.layout = .ok layout)
    (hother : other.layout = .ok otherLayout)
    (horder : other.StatesOrder "NCHW" ↔ net.StatesOrder "NCHW") : otherLayout = layout := by
  rw [← layout_channelFirst_iff hother, ← layout_channelFirst_iff hlayout] at horder
  cases layout <;> cases otherLayout <;> simp at horder ⊢

end Net

namespace FlatNet

variable {predict otherPredict init otherInit : Net} {initializers : List NetOperator}

/-- Two nets can be joined if every initializer can be loaded in the layout of its net. -/
theorem joinable_iff_loads (options : LoadOptions) :
    Joinable predict init ↔ predict.Decodes ∧ (init.operators.flatMap (·.outputs)).Nodup ∧
      ∀ layout, (layout = .channelFirst → init.StatesOrder "NCHW") →
        ∀ operator ∈ init.operators,
          ∃ tensor, Tensor.ofInitializer options layout operator = .ok tensor := by
  simp only [Tensor.exists_ofInitializer_iff]
  constructor
  · rintro ⟨hpredict, hinit, houtput, hdistinct, hfilled⟩
    refine ⟨hpredict, hdistinct, fun layout hlayout operator hoperator => ?_⟩
    exact ⟨houtput operator hoperator, hinit operator hoperator,
      fun hfirst => hfilled (hlayout hfirst) operator hoperator⟩
  · rintro ⟨hpredict, hdistinct, hloads⟩
    -- In the plain layout loading asks for no more than that all can be read.
    have hplain := hloads .channelLast (by simp)
    refine ⟨hpredict, fun operator hoperator => (hplain operator hoperator).2.1,
      fun operator hoperator => (hplain operator hoperator).1, hdistinct, ?_⟩
    intro horder operator hoperator
    exact (hloads .channelFirst (fun _ => horder) operator hoperator).2.2 rfl

section Reorders

variable
  (hpredict : List.Forall₂ (NetOperator.Reorders NetOperator.Distinct) predict.operators
    otherPredict.operators)
  (hperm : init.operators.Perm initializers)
  (hinit : List.Forall₂ (NetOperator.Reorders NetOperator.DistinctFacts) initializers
    otherInit.operators)

include hpredict hperm hinit

theorem joinable_iff_of_reorders :
    Joinable otherPredict otherInit ↔ Joinable predict init := by
  have hdistinct : (otherInit.operators.flatMap (·.outputs)).Nodup ↔
      (init.operators.flatMap (·.outputs)).Nodup := by
    rw [Net.outputs_of_reorders hinit]
    exact (hperm.flatMap_right _).nodup_iff.symm
  have hloads (layout : Layout) :
      (∀ operator ∈ otherInit.operators,
        ∃ tensor, Tensor.ofInitializer {} layout operator = .ok tensor) ↔
      ∀ operator ∈ init.operators,
        ∃ tensor, Tensor.ofInitializer {} layout operator = .ok tensor :=
    forall_partner_iff hperm hinit fun _ _ hoperator =>
      (hoperator.matches_ofInitializer {} layout).exists_ok_iff
  rw [joinable_iff_loads {}, joinable_iff_loads {}, hdistinct,
    Net.decodes_iff_of_reorders (.refl _) hpredict]
  simp only [Net.statesOrder_iff_of_reorders hperm hinit, hloads]

/-- Neither the order of the initializers nor that of arguments that set different facts shows in
the joined net. -/
theorem join_reordered (options : LoadOptions) (net : FlatNet) :
    join options otherPredict otherInit = .ok net ↔ join options predict init = .ok net := by
  refine Matches.ok_iff_of_eq (matches_of_exists_ok_iff ?_ ?_) net
  · rw [exists_join_iff, exists_join_iff, joinable_iff_of_reorders hpredict hperm hinit]
  intro joined otherJoined hjoin hother
  obtain ⟨hinitLayout, hpredictLayout, -, hoperators⟩ := join_eq_ok_iff.mp hjoin
  obtain ⟨hotherInitLayout, hotherPredictLayout, -, hothers⟩ := join_eq_ok_iff.mp hother
  have hinits : otherJoined.initLayout = joined.initLayout :=
    Net.layout_eq_of_statesOrder hinitLayout hotherInitLayout
      (Net.statesOrder_iff_of_reorders hperm hinit _)
  have hpredicts : otherJoined.predictLayout = joined.predictLayout :=
    Net.layout_eq_of_statesOrder hpredictLayout hotherPredictLayout
      (Net.statesOrder_iff_of_reorders (.refl _) hpredict _)
  have htables : joined.initializers = otherJoined.initializers := by
    refine Table.ext_find? fun name => Option.ext fun tensor => ?_
    rw [(resolves_of_join hjoin).initializers, (resolves_of_join hother).initializers, hinits]
    refine (exists_partner_iff hperm hinit fun operator other hoperator => ?_).symm
    rw [hoperator.outputs, (hoperator.matches_ofInitializer _ _).ok_iff_of_eq]
  have hflat : joined.operators = otherJoined.operators := by
    rw [← hpredicts, htables] at hoperators
    have hmatches : Matches (List.Forall₂ Eq) (.ok joined.operators : Except LoadError _)
        (.ok otherJoined.operators : Except LoadError _) := by
      rw [← hoperators, ← hothers]
      refine Matches.mapM ?_ hpredict
      intro operator other hoperator
      exact hoperator.matches_ofOperator _ _
    rwa [matches_ok_iff, List.forall₂_eq_eq_eq] at hmatches
  cases joined
  cases otherJoined
  simp_all only

end Reorders

/-- A channel-first net whose order comes after the shape that it is for. -/
def scatteredInit : Net where
  operators := [
    { outputs := ["filter"]
      arguments := [{ name := some "shape", ints := [1, 2, 1, 1] },
        { name := some "values", bytes := some [7, 8] },
        { name := some "Y_scales", floats := [.one, .zero] }] },
    { outputs := ["bias"]
      arguments := [{ name := some "shape", ints := [1] },
        { name := some "order", bytes := some [78, 67, 72, 87] },
        { name := some "Y_scale", float := some .one }] }]

def scatteredPredict : Net where
  operators := [
    { inputs := ["image", "filter", "bias"]
      arguments := [{ name := some "kernel", int := some 1 },
        { name := some "order", bytes := some [78, 67, 72, 87] },
        { int := some 2 }] }]

theorem join_reordered_scattered :
    List.Forall₂ (NetOperator.Reorders NetOperator.Distinct) scatteredPredict.operators
        (scatteredPredict.operators.map NetOperator.reversed) ∧
      List.Forall₂ (NetOperator.Reorders NetOperator.DistinctFacts)
        scatteredInit.operators.reverse
        (scatteredInit.operators.reverse.map NetOperator.reversed) ∧
      ∃ net, join {} scatteredPredict scatteredInit = .ok net ∧
        join {} { operators := scatteredPredict.operators.map NetOperator.reversed }
          { operators := scatteredInit.operators.reverse.map NetOperator.reversed } = .ok net ∧
        (net.initializers.find? "filter").bind Tensor.shape =
          some (.numbers (.int32 #[1, 1, 1, 2])) := by
  have hpredict : List.Forall₂ (NetOperator.Reorders NetOperator.Distinct)
      scatteredPredict.operators (scatteredPredict.operators.map NetOperator.reversed) :=
    .cons (NetOperator.reorders_reversed (by decide)) .nil
  have hinit : List.Forall₂ (NetOperator.Reorders NetOperator.DistinctFacts)
      scatteredInit.operators.reverse
      (scatteredInit.operators.reverse.map NetOperator.reversed) :=
    .cons (NetOperator.reorders_reversed (by decide))
      (.cons (NetOperator.reorders_reversed (by decide)) .nil)
  have hread : (fun net : FlatNet => (net.initializers.find? "filter").bind Tensor.shape) <$>
      join {} scatteredPredict scatteredInit =
        .ok (some (.numbers (.int32 #[1, 1, 1, 2]))) := by
    decide +kernel
  obtain ⟨net, hjoin, hshape⟩ := map_eq_ok_iff.mp hread
  exact ⟨hpredict, hinit, net, hjoin,
    (join_reordered hpredict (List.reverse_perm _).symm hinit {} net).mpr hjoin, hshape⟩

end FlatNet

end NetLowering
