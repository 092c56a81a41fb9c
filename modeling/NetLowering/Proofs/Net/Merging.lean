import NetLowering.Load
import NetLowering.Proofs.Wire.Spelling

/-!
# Nets from parts

The bytes of a net may be followed by those of another one.  A field is added to a
merged net as it is added to its second part, so what a net is read as does not depend
on where the reading began, and `Net.decode_append` says that bytes after those of a
net are read as if they stood alone and merged into it.
-/

namespace NetLowering

open Wire

namespace Net

/-- Lists of the second net follow those of the first, and its other fields take the places of the
first net's if they are there. -/
def merge (net other : Net) : Net where
  name := other.name.or net.name
  operators := net.operators ++ other.operators
  type := other.type.or net.type
  arguments := net.arguments ++ other.arguments
  externalInputs := net.externalInputs ++ other.externalInputs
  externalOutputs := net.externalOutputs ++ other.externalOutputs

variable {net : Net}

@[simp] theorem merge_empty : net.merge {} = net := by
  simp [merge]

theorem collect_merge (budget : Nat) (other : Net) (field : Field) :
    (net.merge other).collect budget field = (other.collect budget field).map net.merge := by
  obtain ⟨tag, payload⟩ := field
  unfold collect
  split <;> simp [merge, Function.comp_def]

theorem foldlM_collect_merge (budget : Nat) (fields : List Field) (other : Net) :
    fields.foldlM (collect budget) (net.merge other) =
      (fields.foldlM (collect budget) other).map net.merge := by
  induction fields generalizing other with
  | nil => rfl
  | cons field fields ih =>
      rw [List.foldlM_cons, List.foldlM_cons, collect_merge]
      cases other.collect budget field with
      | none => rfl
      | some next => exact ih next

theorem ofBytes_append {first : Bytes} (hfirst : ofBytes first = some net) (second : Bytes) :
    ofBytes (first ++ second) = (ofBytes second).map net.merge := by
  obtain ⟨found, hfound, hnet⟩ := Option.bind_eq_some_iff.mp hfirst
  calc ofBytes (first ++ second)
    _ = ((fields nestingBudget second).map (found ++ ·)).bind
          (·.foldlM (collect nestingBudget) {}) := by
        rw [← fields_append hfound]
        rfl
    _ = (fields nestingBudget second).bind (·.foldlM (collect nestingBudget) (net.merge {})) := by
        rw [Option.bind_map]
        refine congrArg _ (funext fun others => ?_)
        rw [Function.comp_apply, List.foldlM_append, hnet, merge_empty]
        rfl
    _ = (ofBytes second).map net.merge := by
        simp only [foldlM_collect_merge]
        exact Option.map_bind.symm

/-- After the bytes of a net, any other bytes are read as if they stood alone, and what is read of
them is merged into the net. -/
theorem decode_append {first : Bytes} (hfirst : decode first = .ok net) (second : Bytes) :
    decode (first ++ second) = (decode second).map net.merge := by
  rw [decode, decode, ofBytes_append (decode_eq_ok_iff.mp hfirst)]
  cases ofBytes second <;> rfl

/-- The second part has another name and one more input. -/
theorem decode_append_renamed :
    decode [10, 1, 97, 58, 1, 120] = .ok { name := some "a", externalInputs := ["x"] } ∧
      decode ([10, 1, 97, 58, 1, 120] ++ [58, 1, 121, 10, 1, 98]) =
        .ok { name := some "b", externalInputs := ["x", "y"] } := by
  have hfirst : decode [10, 1, 97, 58, 1, 120] =
      .ok { name := some "a", externalInputs := ["x"] } :=
    decode_eq_ok_iff.mpr (by decide +kernel)
  have hsecond : decode [58, 1, 121, 10, 1, 98] =
      .ok { name := some "b", externalInputs := ["y"] } :=
    decode_eq_ok_iff.mpr (by decide +kernel)
  refine ⟨hfirst, ?_⟩
  rw [decode_append hfirst, hsecond]
  rfl

end Net

end NetLowering
