import NetLowering.Proofs.Lowering.Coherence
import NetLowering.Proofs.Lowering.Names
import NetLowering.Proofs.Lowering.Simulation

/-!
# Softmaxes that are skipped can be left out

A skipped softmax only makes its output another name for its input.  Without it,
and with the operators behind it reading its input directly, a net is lowered to the
same graph; what is missing is the one name (`FlatNet.lower_bypassed`).
-/

namespace NetLowering

open Checked

/-! ## Bypassing -/

/-- What the name is another name for, or the name itself. -/
def standsFor (aliases : List (String × String)) (name : String) : String :=
  (aliases.lookup name).getD name

namespace FlatOp

/-- The operator with another name for the image that it reads. -/
def readingAs (operator : FlatOp) (rename : String → String) : FlatOp :=
  { operator with
    inputs := operator.inputs.modifyHead fun tensor => { tensor with name := rename tensor.name } }

/-- The output of a skipped softmax becomes an alias for what its input stands for. -/
def withAlias (options : LoweringOptions) (aliases : List (String × String))
    (operator : FlatOp) : List (String × String) :=
  match operator.alias? options with
  | some (name, source) => (name, standsFor aliases source) :: aliases
  | none => aliases

end FlatOp

namespace FlatNet

/-- Leaves out the skipped softmaxes; what follows them reads what they read. -/
def bypass (options : LoweringOptions) : List (String × String) → List FlatOp → List FlatOp
  | _, [] => []
  | aliases, operator :: rest =>
    let later := bypass options (operator.withAlias options aliases) rest
    if operator.IsSkipped options then later
    else operator.readingAs (standsFor aliases) :: later

def bypassed (options : LoweringOptions) (net : FlatNet) : FlatNet :=
  { net with operators := bypass options [] net.operators }

/-- What a name stands for after all operators of the net. -/
def resolved (options : LoweringOptions) (net : FlatNet) : String → String :=
  standsFor (net.operators.foldl (FlatOp.withAlias options) [])

end FlatNet

/-! ## Aliases -/

section Aliases

variable {aliases : List (String × String)} {table plain : Table String OperandId}
  {name source : String} {id : OperandId}

theorem standsFor_cons (name target other : String) (aliases : List (String × String)) :
    standsFor ((name, target) :: aliases) other =
      if other = name then target else standsFor aliases other := by
  by_cases hname : other = name
  · simp [standsFor, hname]
  · simp [standsFor, List.lookup_cons, beq_false_of_ne hname, hname]

theorem standsFor_eq_or_mem (aliases : List (String × String)) (name : String) :
    (∀ pair ∈ aliases, pair.1 ≠ name) ∧ standsFor aliases name = name ∨
      (name, standsFor aliases name) ∈ aliases := by
  induction aliases with
  | nil => simp [standsFor]
  | cons pair aliases ih =>
      obtain ⟨other, target⟩ := pair
      rw [standsFor_cons]
      by_cases hname : name = other
      · simp [hname]
      · simpa [hname, Ne.symm hname] using ih

/-- The table is the plain one with these aliases for names of it. -/
structure Table.Aliases (aliases : List (String × String)) (table plain : Table String OperandId) :
    Prop where
  found : ∀ name, table.find? name = plain.find? (standsFor aliases name)
  fresh : ∀ pair ∈ aliases, plain.find? pair.1 = none
  known : ∀ pair ∈ aliases, ∃ id, plain.find? pair.2 = some id
  distinct : (aliases.map Prod.fst).Nodup

namespace Table.Aliases

theorem free (haliases : Table.Aliases aliases table plain) (hfree : table.find? name = none) :
    plain.find? name = none ∧ ∀ pair ∈ aliases, pair.1 ≠ name := by
  rw [haliases.found] at hfree
  rcases standsFor_eq_or_mem aliases name with ⟨hnone, hself⟩ | halias
  · exact ⟨hself ▸ hfree, hnone⟩
  · obtain ⟨id, hid⟩ := haliases.known _ halias
    cases hid.symm.trans hfree

/-- A name that is new to the table stands for itself, and nothing stands for it. -/
theorem insert (haliases : Table.Aliases aliases table plain) (hfree : table.find? name = none)
    (id : OperandId) : Table.Aliases aliases (table.insert name id) (plain.insert name id) := by
  obtain ⟨hplain, hnone⟩ := haliases.free hfree
  refine ⟨fun other => ?_, fun pair hpair => ?_, fun pair hpair => ?_, haliases.distinct⟩
  · have hsame : standsFor aliases other = name ↔ other = name := by
      rcases standsFor_eq_or_mem aliases other with ⟨-, hself⟩ | halias
      · rw [hself]
      · refine iff_of_false (fun htarget => ?_) (hnone _ halias)
        obtain ⟨found, hfound⟩ := haliases.known _ halias
        cases hfound.symm.trans (htarget ▸ hplain)
    simp only [Table.find?_insert, hsame, haliases.found]
  · rw [Table.find?_insert, if_neg (hnone pair hpair)]
    exact haliases.fresh pair hpair
  · obtain ⟨found, hfound⟩ := haliases.known pair hpair
    exact ⟨found, Table.find?_insert_of_some hplain hfound⟩

/-- A new alias for a name of the table. -/
theorem cons (haliases : Table.Aliases aliases table plain) (hfree : table.find? name = none)
    (hsource : table.find? source = some id) :
    Table.Aliases ((name, standsFor aliases source) :: aliases) (table.insert name id) plain := by
  obtain ⟨hplain, hnone⟩ := haliases.free hfree
  rw [haliases.found] at hsource
  refine ⟨fun other => ?_, ?_, ?_, ?_⟩
  · rw [Table.find?_insert, standsFor_cons]
    split
    · exact hsource.symm
    · exact haliases.found other
  · exact List.forall_mem_cons.mpr ⟨hplain, haliases.fresh⟩
  · exact List.forall_mem_cons.mpr ⟨⟨id, hsource⟩, haliases.known⟩
  · refine List.nodup_cons.mpr ⟨?_, haliases.distinct⟩
    rintro halias
    obtain ⟨pair, hpair, hname⟩ := List.mem_map.mp halias
    exact hnone pair hpair hname

end Table.Aliases

end Aliases

/-! ## Graphs -/

/-- The graph is the plain one but for its names, of which some are aliases. -/
def Graph.Renames (aliases : List (String × String)) (graph plain : Graph) : Prop :=
  ∃ table, graph = { plain with tensorIds := table } ∧ Table.Aliases aliases table plain.tensorIds

namespace Graph

variable {aliases : List (String × String)} {graph plain next : Graph}

theorem renames_start (name : String) (type : OperandType) :
    (FlatNet.startGraph name type).Renames [] (FlatNet.startGraph name type) :=
  ⟨_, rfl, fun _ => rfl, by simp, by simp, List.nodup_nil⟩

theorem simulation_renames (aliases : List (String × String)) :
    Simulation (Renames aliases) Eq Eq where
  size := by
    rintro _ plain ⟨table, rfl, -⟩
    rfl
  param := by
    rintro _ plain param _ ⟨table, rfl, haliases⟩ rfl hadmits
    refine ⟨⟨hadmits.elements, fun name hname => (haliases.free (hadmits.newName name hname)).1,
      hadmits.newValue, hadmits.newQuant⟩, _, rfl, ?_⟩
    cases hname : param.name with
    | none => simpa [withParam, hname] using haliases
    | some name => simpa [withParam, hname] using haliases.insert (hadmits.newName name hname) _
  result := by
    rintro _ plain name type _ operation ⟨table, rfl, haliases⟩ rfl hfresh
    exact ⟨(haliases.free hfresh).1, _, rfl, haliases.insert hfresh _⟩

theorem Renames.feed (hrenames : graph.Renames aliases plain) {tensor : Tensor} {feed : Feed}
    (hfeed : graph.feed tensor = .ok feed) :
    plain.feed { tensor with name := standsFor aliases tensor.name } = .ok feed := by
  obtain ⟨table, rfl, haliases⟩ := hrenames
  rw [feed_eq_ok_iff] at hfeed ⊢
  obtain ⟨hfound, htype, haxes⟩ := hfeed
  exact ⟨(haliases.found _).symm.trans hfound, htype,
    Axes.ofDims_eq_ok_iff.mpr (Axes.ofDims_eq_ok_iff.mp haxes)⟩

end Graph

/-! ## Operators -/

theorem Layer.alike_refl (layer : Layer) : layer.Alike Eq Eq layer where
  code := rfl
  input := rfl
  params := List.forall₂_same.mpr fun _ _ => rfl
  output := fun output houtput => ⟨output, houtput, rfl, rfl⟩

namespace FlatOp

variable {options : LoweringOptions} {operator : FlatOp} {aliases : List (String × String)}
  {graph plain next : Graph}

theorem input_readingAs {rename : String → String} {source : Tensor}
    (hread : operator.input 0 = .ok source) :
    (operator.readingAs rename).input 0 = .ok { source with name := rename source.name } := by
  rw [input_eq_ok_iff] at hread ⊢
  simp [readingAs, hread]

/-- A convolution reads the same under the other name of its image. -/
theorem ofOperator_readingAs {convolution : Convolution} (hrenames : graph.Renames aliases plain)
    (hread : Convolution.ofOperator options graph operator = .ok convolution) :
    Convolution.ofOperator options plain (operator.readingAs (standsFor aliases)) =
      .ok convolution := by
  simp only [Convolution.ofOperator, bind_eq_ok_iff] at hread ⊢
  obtain ⟨source, hsource, filter, hfilter, bias, hbias, feed, hfeed, hrest⟩ := hread
  have hlater (index : Nat) : (operator.readingAs (standsFor aliases)).input (index + 1) =
      operator.input (index + 1) := by
    simp [readingAs, input]
  exact ⟨_, input_readingAs hsource, filter, (hlater 0).trans hfilter, bias,
    (hlater 1).trans hbias, feed, hrenames.feed hfeed, hrest⟩

theorem Grows.readingAs (hgrows : operator.Grows options graph next)
    (hkept : ¬operator.IsSkipped options) (hrenames : graph.Renames aliases plain) :
    ∃ plainNext, (operator.readingAs (standsFor aliases)).lower options plain = .ok plainNext ∧
      next.Renames aliases plainNext := by
  cases hgrows with
  | convolution convolution htype hread hadded =>
      obtain ⟨plainNext, hplain, hnext⟩ := (Graph.simulation_renames aliases).addLayer
        (Layer.alike_refl _) hrenames next hadded
      exact ⟨plainNext, lower_of_grows (.convolution convolution htype
        (ofOperator_readingAs hrenames hread) hplain), hnext⟩
  | pooling pooling htype hread hadded =>
      obtain ⟨plainNext, hplain, hnext⟩ := (Graph.simulation_renames aliases).addLayer
        (Layer.alike_refl _) hrenames next hadded
      simp only [Pooling.ofOperator, bind_eq_ok_iff] at hread
      obtain ⟨source, hsource, feed, hfeed, hrest⟩ := hread
      refine ⟨plainNext, lower_of_grows (.pooling pooling htype ?_ hplain), hnext⟩
      simp only [Pooling.ofOperator, bind_eq_ok_iff]
      exact ⟨_, input_readingAs hsource, feed, hrenames.feed hfeed, hrest⟩
  | skipped _ _ _ htype hpolicy _ _ _ _ => exact absurd ⟨htype, hpolicy⟩ hkept
  | softmax source name input type htype hpolicy hread hwritten hfound htyped hadded =>
      obtain ⟨plainNext, hplain, hnext⟩ := (Graph.simulation_renames aliases).addLayer
        (Layer.alike_refl _) hrenames next hadded
      obtain ⟨table, rfl, haliases⟩ := hrenames
      exact ⟨plainNext, lower_of_grows (.softmax _ name input type htype hpolicy
        (input_readingAs hread) hwritten ((haliases.found _).symm.trans hfound) htyped hplain),
        hnext⟩

theorem Grows.withAlias (hgrows : operator.Grows options graph next)
    (hskipped : operator.IsSkipped options) (hrenames : graph.Renames aliases plain) :
    next.Renames (operator.withAlias options aliases) plain := by
  cases hgrows.contributes with
  | layer hkept => exact absurd hskipped hkept
  | name _ source name input hread hwritten hfound hnamed =>
      obtain ⟨hfree, rfl⟩ := Graph.nameAs_eq_ok_iff.mp hnamed
      obtain ⟨table, rfl, haliases⟩ := hrenames
      have halias : operator.alias? options = some (name, source.name) := by
        simp [alias?, hskipped, hread, hwritten]
      rw [FlatOp.withAlias, halias]
      exact ⟨_, rfl, haliases.cons hfree hfound⟩

end FlatOp

/-! ## Nets -/

namespace FlatNet

variable {options : LoweringOptions} {net : FlatNet} {graph plain grown : Graph}
  {aliases : List (String × String)}

theorem run_bypass {operators : List FlatOp} (hrenames : graph.Renames aliases plain)
    (hrun : operators.foldlM (FlatOp.lower options) graph = .ok grown) :
    ∃ plainGrown, (bypass options aliases operators).foldlM (FlatOp.lower options) plain =
        .ok plainGrown ∧
      grown.Renames (operators.foldl (FlatOp.withAlias options) aliases) plainGrown := by
  induction operators generalizing graph plain aliases with
  | nil =>
      rw [List.foldlM_nil, pure_eq_ok_iff] at hrun
      exact ⟨plain, rfl, hrun ▸ hrenames⟩
  | cons operator rest ih =>
      rw [List.foldlM_cons, bind_eq_ok_iff] at hrun
      obtain ⟨next, hlower, hrest⟩ := hrun
      have hgrows := FlatOp.grows_of_lower hlower
      by_cases hskipped : operator.IsSkipped options
      · obtain ⟨plainGrown, hplain, hgrown⟩ := ih (hgrows.withAlias hskipped hrenames) hrest
        exact ⟨plainGrown, by rwa [bypass, if_pos hskipped], hgrown⟩
      · obtain ⟨plainNext, hstep, hnext⟩ := hgrows.readingAs hskipped hrenames
        have hsame : operator.withAlias options aliases = aliases := by
          simp [FlatOp.withAlias, FlatOp.alias?, hskipped]
        obtain ⟨plainGrown, hplain, hgrown⟩ := ih hnext hrest
        refine ⟨plainGrown, ?_, by rwa [List.foldl_cons, hsame]⟩
        rw [bypass, if_neg hskipped, List.foldlM_cons, hstep, ok_bind, hsame]
        exact hplain

theorem bypass_append (aliases : List (String × String)) (done rest : List FlatOp) :
    bypass options aliases (done ++ rest) = bypass options aliases done ++
      bypass options (done.foldl (FlatOp.withAlias options) aliases) rest := by
  induction done generalizing aliases with
  | nil => rfl
  | cons operator done ih =>
      rw [List.cons_append, bypass, bypass, ih, List.foldl_cons]
      split <;> rfl

theorem head?_bypassed {first : FlatOp} (hfirst : net.operators.head? = some first)
    (hkept : ¬first.IsSkipped options) :
    (net.bypassed options).operators.head? = some first := by
  obtain ⟨rest, hrest⟩ := List.head?_eq_some_iff.mp hfirst
  have hself : first.readingAs (standsFor []) = first := by
    obtain ⟨_, _, _, inputs, _, _⟩ := first
    cases inputs <;> rfl
  rw [bypassed, hrest, bypass, if_neg hkept, List.head?_cons, hself]

theorem outputName?_bypassed {last : FlatOp} (hlast : net.operators.getLast? = some last)
    (hkept : ¬last.IsSkipped options) :
    (net.bypassed options).outputName? = last.outputs.head? := by
  obtain ⟨done, hdone⟩ := List.getLast?_eq_some_iff.mp hlast
  rw [outputName?, bypassed, hdone, bypass_append, bypass, if_neg hkept]
  simp [bypass, FlatOp.readingAs]

theorem map_fst_aliases (operators : List FlatOp) (aliases : List (String × String)) :
    (operators.foldl (FlatOp.withAlias options) aliases).map Prod.fst =
      (operators.filterMap fun operator => (operator.alias? options).map Prod.fst).reverse ++
        aliases.map Prod.fst := by
  induction operators generalizing aliases with
  | nil => rfl
  | cons operator operators ih =>
      rw [List.foldl_cons, ih, FlatOp.withAlias]
      cases halias : operator.alias? options <;> simp [halias]

/-- The name that a skipped softmax gives, with the operand that its input leads to in the plain
graph once aliases are resolved. -/
def aliasPair? (options : LoweringOptions) (net : FlatNet) (plain : Graph) (operator : FlatOp) :
    Option (String × OperandId) := do
  let (name, source) ← operator.alias? options
  let id ← plain.tensorIds.find? (net.resolved options source)
  return (name, id)

/-- A graph of the net beside one of the net without its skipped softmaxes. -/
structure Bypasses (net : FlatNet) (options : LoweringOptions) (graph plain : Graph) : Prop where
  operands : graph.operands = plain.operands
  values : graph.values = plain.values
  channelQuants : graph.channelQuants = plain.channelQuants
  operations : graph.operations = plain.operations
  requiredOps : graph.requiredOps = plain.requiredOps
  inputs : graph.inputs = plain.inputs
  /-- Every skipped softmax has an entry, -/
  aliases : ∀ operator ∈ net.operators, operator.IsSkipped options →
    (net.aliasPair? options plain operator).isSome
  /-- and these are all that the plain graph lacks. -/
  tensorIds : graph.tensorIds.entries.Perm
    (plain.tensorIds.entries ++ net.operators.filterMap (net.aliasPair? options plain))
  outputs : ∀ last, net.operators.getLast? = some last →
    if last.IsSkipped options then
      ∃ entry, net.aliasPair? options plain last = some entry ∧ graph.outputs = [entry.2]
    else graph.outputs = plain.outputs

theorem exists_alias_of_run {operators : List FlatOp} {operator : FlatOp}
    (hrun : operators.foldlM (FlatOp.lower options) graph = .ok grown)
    (hoperator : operator ∈ operators) (hskipped : operator.IsSkipped options) :
    ∃ name source, operator.alias? options = some (name, source) ∧
      operator.outputs.head? = some name := by
  obtain ⟨_, _, before, after, -, -, hlower, -⟩ := exists_moment hrun hoperator
  cases FlatOp.contributes_of_lower hlower with
  | layer hkept => exact absurd hskipped hkept
  | name _ source name _ hread hwritten _ _ =>
      exact ⟨name, source.name, by simp [FlatOp.alias?, hskipped, hread, hwritten], hwritten⟩

section Entries

variable (haliases : Table.Aliases (net.operators.foldl (FlatOp.withAlias options) [])
    grown.tensorIds plain.tensorIds)
  (hscoped : net.Scoped options net.operators grown)

include haliases hscoped

theorem aliasPair?_of_alias {operator : FlatOp} {name source : String}
    (hoperator : operator ∈ net.operators)
    (halias : operator.alias? options = some (name, source)) :
    ∃ id, net.aliasPair? options plain operator = some (name, id) ∧
      grown.tensorIds.find? name = some id := by
  obtain ⟨id, hname, hsource⟩ :=
    hscoped.names.aliased (name, source) (List.mem_filterMap.mpr ⟨operator, hoperator, halias⟩)
  rw [haliases.found] at hsource
  exact ⟨id, by simp [aliasPair?, halias, resolved, hsource], hname⟩

theorem map_fst_aliasPair? {operator : FlatOp} (hoperator : operator ∈ net.operators) :
    (net.aliasPair? options plain operator).map Prod.fst =
      (operator.alias? options).map Prod.fst := by
  cases halias : operator.alias? options with
  | none => simp [aliasPair?, halias]
  | some pair =>
      obtain ⟨id, hentry, -⟩ := aliasPair?_of_alias haliases hscoped hoperator halias
      simp [hentry]

theorem find?_of_mem_aliasPair? {name : String} {id : OperandId}
    (hentry : (name, id) ∈ net.operators.filterMap (net.aliasPair? options plain)) :
    grown.tensorIds.find? name = some id := by
  obtain ⟨operator, hoperator, hentry⟩ := List.mem_filterMap.mp hentry
  cases halias : operator.alias? options with
  | none => simp [aliasPair?, halias] at hentry
  | some pair =>
      obtain ⟨found, hfound, hname⟩ := aliasPair?_of_alias haliases hscoped hoperator halias
      cases hentry.symm.trans hfound
      exact hname

/-- The entries of the plain table and those of the aliases are all there is. -/
theorem perm_entries :
    grown.tensorIds.entries.Perm
      (plain.tensorIds.entries ++ net.operators.filterMap (net.aliasPair? options plain)) := by
  have hkeys : (net.operators.filterMap (net.aliasPair? options plain)).map Prod.fst =
      ((net.operators.foldl (FlatOp.withAlias options) []).map Prod.fst).reverse := by
    rw [List.map_filterMap, map_fst_aliases, List.map_nil, List.append_nil, List.reverse_reverse]
    exact List.filterMap_congr fun operator => map_fst_aliasPair? haliases hscoped
  have hnodup : (plain.tensorIds.entries ++
      net.operators.filterMap (net.aliasPair? options plain)).Nodup := by
    refine List.Nodup.of_map Prod.fst ?_
    rw [List.map_append, hkeys, List.nodup_append, List.nodup_reverse]
    refine ⟨plain.tensorIds.nodup_keys, haliases.distinct, ?_⟩
    rintro name hname _ halias rfl
    obtain ⟨pair, hpair, rfl⟩ := List.mem_map.mp (List.mem_reverse.mp halias)
    obtain ⟨id, hid⟩ := Table.mem_keys_iff.mp hname
    cases hid.symm.trans (haliases.fresh pair hpair)
  -- No name stands twice on either side, so it is enough that both have the same members.
  rw [List.perm_ext_iff_of_nodup (List.Nodup.of_map Prod.fst grown.tensorIds.nodup_keys) hnodup]
  rintro ⟨name, id⟩
  rw [List.mem_append, Table.mem_entries_iff, Table.mem_entries_iff]
  constructor
  · intro hfound
    rcases standsFor_eq_or_mem (net.operators.foldl (FlatOp.withAlias options) []) name with
      ⟨-, hself⟩ | hlisted
    · exact .inl (by rwa [haliases.found, hself] at hfound)
    · have hname := List.mem_map_of_mem (f := Prod.fst) hlisted
      rw [← List.mem_reverse, ← hkeys] at hname
      obtain ⟨⟨_, other⟩, hentry, rfl⟩ := List.mem_map.mp hname
      cases hfound.symm.trans (find?_of_mem_aliasPair? haliases hscoped hentry)
      exact .inr hentry
  · rintro (hplain | hentry)
    · rcases standsFor_eq_or_mem (net.operators.foldl (FlatOp.withAlias options) []) name with
        ⟨-, hself⟩ | hlisted
      · rwa [haliases.found, hself]
      · cases hplain.symm.trans (haliases.fresh _ hlisted)
    · exact find?_of_mem_aliasPair? haliases hscoped hentry

end Entries

/-- A net whose first operator is not skipped is lowered to the same graph without its skipped
softmaxes, but for their names. -/
theorem lower_bypassed {first : FlatOp} (hfirst : net.operators.head? = some first)
    (hkept : ¬first.IsSkipped options) (hlower : net.lower options = .ok graph) :
    ∃ plain, (net.bypassed options).lower options = .ok plain ∧
      net.Bypasses options graph plain := by
  obtain ⟨found, last, start, grown, name, output, hfound, hlast, hstart, hrun, hname, houtput, rfl,
    -⟩ := lower_eq_ok_iff.mp hlower
  cases hfirst.symm.trans hfound
  obtain ⟨source, type, hsource, -, rfl⟩ := inputGraph_eq_ok_iff.mp hstart
  have hinput : net.inputName? = some source.name := by
    simp [inputName?, hfirst, FlatOp.head?_of_input hsource]
  have hscoped := scoped_of_run hinput hrun
  obtain ⟨plain, hplainRun, table, rfl, haliases⟩ :=
    run_bypass (Graph.renames_start source.name type) hrun
  have hentries := perm_entries haliases hscoped
  obtain ⟨plainName, plainOutput, hplainName, hplainOutput, hplain⟩ :=
    lower_of_run (head?_bypassed hfirst hkept) hstart hplainRun
  refine ⟨_, hplain, rfl, rfl, rfl, rfl, rfl, rfl, ?_, hentries, ?_⟩
  · intro operator hoperator hskipped
    obtain ⟨_, _, halias, -⟩ := exists_alias_of_run hrun hoperator hskipped
    obtain ⟨id, hentry, -⟩ := aliasPair?_of_alias haliases hscoped hoperator halias
    exact Option.isSome_iff_exists.mpr ⟨_, hentry⟩
  · intro operator hoperator
    cases hlast.symm.trans hoperator
    have hwritten := FlatOp.outputName_eq_ok_iff.mp hname
    split
    · rename_i hskipped
      have hmem := List.mem_of_getLast? hlast
      obtain ⟨_, _, halias, hwrittenToo⟩ := exists_alias_of_run hrun hmem hskipped
      cases hwritten.symm.trans hwrittenToo
      obtain ⟨id, hentry, hid⟩ := aliasPair?_of_alias haliases hscoped hmem halias
      cases houtput.symm.trans hid
      exact ⟨_, hentry, rfl⟩
    · rename_i hlastKept
      rw [outputName?_bypassed hlast hlastKept, hwritten] at hplainName
      cases hplainName
      -- What the last operator writes is a name of the plain graph, so it is no alias.
      rcases standsFor_eq_or_mem (net.operators.foldl (FlatOp.withAlias options) []) name with
        ⟨-, hself⟩ | hlisted
      · rw [haliases.found, hself] at houtput
        cases houtput.symm.trans hplainOutput
        rfl
      · cases hplainOutput.symm.trans (haliases.fresh _ hlisted)

/-- Softmaxes in a row, and one more at the end that reads what an earlier one has written. -/
def softmaxChain : FlatNet where
  operators := threeLayers.operators.take 1 ++ [
    { type := "Softmax", inputs := [.named "features"], outputs := ["soft"] },
    { type := "Softmax", inputs := [.named "soft"], outputs := ["softer"] },
    { type := "Int8AveragePool"
      inputs := [.named "softer"]
      outputs := ["pooled"]
      arguments := .ofList [("global_pooling", .numbers (.int32 #[1]))] },
    { type := "Softmax", inputs := [.named "softer"], outputs := ["likelihoods"] }]

theorem lower_bypassed_softmaxChain :
    ∃ graph plain,
      softmaxChain.lower { inputSize := [3, 2, 1], softmax := .skip } = .ok graph ∧
      (softmaxChain.bypassed { inputSize := [3, 2, 1], softmax := .skip }).lower
        { inputSize := [3, 2, 1], softmax := .skip } = .ok plain ∧
      softmaxChain.Bypasses { inputSize := [3, 2, 1], softmax := .skip } graph plain ∧
      graph.outputs = [.own 10] ∧ plain.outputs = [.own 20] := by
  have hread : (fun graph : Graph => graph.outputs) <$>
      softmaxChain.lower { inputSize := [3, 2, 1], softmax := .skip } = .ok [.own 10] := by
    rfl
  have hplainRead : (fun graph : Graph => graph.outputs) <$>
      (softmaxChain.bypassed { inputSize := [3, 2, 1], softmax := .skip }).lower
        { inputSize := [3, 2, 1], softmax := .skip } = .ok [.own 20] := by
    rfl
  obtain ⟨graph, hlower, houtputs⟩ := map_eq_ok_iff.mp hread
  obtain ⟨plain, hplain, hbypasses⟩ := lower_bypassed rfl (by simp [FlatOp.IsSkipped]) hlower
  obtain ⟨_, hplainToo, hplainOutputs⟩ := map_eq_ok_iff.mp hplainRead
  cases hplain.symm.trans hplainToo
  exact ⟨graph, plain, hlower, hplain, hbypasses, houtputs, hplainOutputs⟩

end FlatNet

end NetLowering
