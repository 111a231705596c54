import CollisionMesh.Proofs.BatchOutputs
import CollisionMesh.Proofs.QuotedText

/-!
# The others in the error of a shared output

The error of an input whose output is that of others quotes the input, then other inputs, then the
output. The others are told from the input by their paths and not by their places in the batch. So
those that are the same path are left out, a second mention of the input and other spellings of it,
and all that are another path are quoted as they were given.
-/

namespace CollisionMesh

set_option autoImplicit false

/-- The error of a shared output quotes the paths that it is made of, whatever is in them. -/
theorem Failure.quotations_outputShared (input : Path) (others : List Path) (output : Path) :
    Text.quotations (Failure.invalidOptions (.outputShared input others output)).message =
      input.text :: (others.map Path.text ++ [output.text]) := by
  have hmessage : (Failure.invalidOptions (.outputShared input others output)).message =
      "invalid configuration: " ++ (Text.quote input.text ++ " and " ++
        ", ".intercalate (others.map fun other => Text.quote other.text) ++
          " would both be written to " ++ Text.quote output.text) := rfl
  have hothers : (others.map fun other => Text.quote other.text) =
      (others.map Path.text).map Text.quote := by
    rw [List.map_map]
    rfl
  rw [hmessage, hothers, Text.quotations_append (by decide), String.append_assoc,
    String.append_assoc, String.append_assoc, Text.quotations_quote_append,
    Text.quotations_append (by decide), Text.quotations_intercalate_append (by decide),
    Text.quotations_append (by decide), Text.quotations_quote]

namespace Batch

variable {options : Options} {inputs : List Path} {order : List Nat} {i : Nat} {input : Path}

/-- The other entries of a batch with the output of an input, in the order in
which they were given. -/
def sharers (options : Options) (inputs : List Path) (i : Nat) (input : Path) : List Path :=
  (inputs.eraseIdx i).filter fun other => (options.outputFor other).same (options.outputFor input)

theorem filter_eraseIdx {α : Type} {keep : α → Bool} {xs : List α} {a : α} (ha : xs[i]? = some a)
    (hkeep : keep a = false) : (xs.eraseIdx i).filter keep = xs.filter keep := by
  obtain ⟨hi, rfl⟩ := List.getElem?_eq_some_iff.mp ha
  have hsplit : xs.take i ++ xs[i] :: xs.drop (i + 1) = xs := by
    rw [List.getElem_cons_drop, List.take_append_drop]
  conv => rhs; rw [← hsplit]
  rw [List.eraseIdx_eq_take_drop_succ, List.filter_append, List.filter_append,
    List.filter_cons_of_neg (by simp [hkeep])]

/-- An input is named beside itself just by the sharers that are another path. -/
theorem owners_filter_eq (hinput : inputs[i]? = some input) :
    (owners options inputs (options.outputFor input)).filter (fun owner => !owner.same input) =
      (sharers options inputs i input).filter fun other => !other.same input := by
  rw [owners, sharers, List.filter_filter, List.filter_filter]
  exact (filter_eraseIdx hinput (by simp)).symm

theorem sharesAt_of_sharers (h : sharers options inputs i input ≠ []) :
    SharesAt options inputs i input := by
  obtain ⟨other, hother⟩ := List.exists_mem_of_ne_nil _ h
  obtain ⟨hmem, hsame⟩ := List.mem_filter.mp hother
  obtain ⟨j, hne, hj⟩ := List.mem_eraseIdx_iff_getElem?.mp hmem
  exact ⟨j, other, hne, hj, hsame⟩

/-- An entry whose output others have as well is an error that quotes the input, the others that are
another path, in the order of the batch and as they were given, and the output. These are all others
just if none of them is the same path. -/
theorem runInOrder_names_others (fs : FileSystem) (horder : order.Perm (List.range inputs.length))
    (hinput : inputs[i]? = some input) (hshared : sharers options inputs i input ≠ []) :
    ∃ failure, (runInOrder fs options inputs order).1[i]? = some ⟨input, .error failure⟩ ∧
      Text.quotations failure.message =
        input.text ::
          (((sharers options inputs i input).filter fun other => !other.same input).map Path.text ++
          [(options.outputFor input).text]) ∧
      (Text.quotations failure.message =
          input.text ::
            ((sharers options inputs i input).map Path.text ++ [(options.outputFor input).text]) ↔
        ∀ other ∈ sharers options inputs i input, other.same input = false) ∧
      runInOrder fs options inputs (List.range inputs.length) = run fs options inputs := by
  have hentry := (getElem?_eq_sharing_iff fs horder hinput).mpr (sharesAt_of_sharers hshared)
  have hquoted : Text.quotations (sharing options inputs input).message =
      input.text ::
        (((sharers options inputs i input).filter fun other => !other.same input).map Path.text ++
        [(options.outputFor input).text]) := by
    rw [sharing, Failure.quotations_outputShared, owners_filter_eq hinput]
  refine ⟨_, hentry, hquoted, ?_, runInOrder_range fs options inputs⟩
  rw [hquoted, List.cons_inj_right, List.append_cancel_right_eq]
  have htext : Function.Injective Path.text := fun p q h => by
    cases p
    cases q
    cases h
    rfl
  rw [htext.list_map.eq_iff, List.filter_eq_self]
  simp only [Bool.not_eq_eq_eq_not, Bool.not_true]

/-- Three inputs with one output, of which two are called by paths with escapes,
and one with another. -/
theorem runInOrder_names_others_three :
    let inputs : List Path := [⟨"b c.obj"⟩, ⟨"b_c.obj"⟩, ⟨"d.obj"⟩, ⟨"b\"c.obj"⟩]
    [2, 0, 3, 1].Perm (List.range inputs.length) ∧ inputs[1]? = some ⟨"b_c.obj"⟩ ∧
      sharers Options.default inputs 1 ⟨"b_c.obj"⟩ = [⟨"b c.obj"⟩, ⟨"b\"c.obj"⟩] ∧
      ∃ failure, (runInOrder nestedMeshes Options.default inputs [2, 0, 3, 1]).1[1]? =
          some ⟨⟨"b_c.obj"⟩, .error failure⟩ ∧
        Text.quotations failure.message = ["b_c.obj", "b c.obj", "b\"c.obj", "b_c_surfaces.c"] := by
  intro inputs
  have horder : [2, 0, 3, 1].Perm (List.range inputs.length) := by decide
  have hinput : inputs[1]? = some ⟨"b_c.obj"⟩ := rfl
  have hsharers : sharers Options.default inputs 1 ⟨"b_c.obj"⟩ = [⟨"b c.obj"⟩, ⟨"b\"c.obj"⟩] := by
    decide +kernel
  have houtput : Options.default.outputFor ⟨"b_c.obj"⟩ = ⟨"b_c_surfaces.c"⟩ := by decide +kernel
  obtain ⟨failure, hentry, _, hall, _⟩ :=
    runInOrder_names_others nestedMeshes horder hinput (by rw [hsharers]; simp)
  rw [hsharers, houtput] at hall
  exact ⟨horder, hinput, hsharers, failure, hentry, hall.mpr (by decide +kernel)⟩

/-- An input that is given twice is refused both times, and neither error names the other entry. -/
theorem run_leaves_out_duplicate :
    let inputs : List Path := [⟨"x.obj"⟩, ⟨"x.obj"⟩]
    sharers Options.default inputs 0 ⟨"x.obj"⟩ = [⟨"x.obj"⟩] ∧
      ∃ failure, (run nestedMeshes Options.default inputs).1[0]? =
        some ⟨⟨"x.obj"⟩, .error failure⟩ ∧
        failure.message =
          "invalid configuration: \"x.obj\" and  would both be written to \"x_surfaces.c\"" ∧
        Text.quotations failure.message = ["x.obj", "x_surfaces.c"] := by
  intro inputs
  have hsharers : sharers Options.default inputs 0 ⟨"x.obj"⟩ = [⟨"x.obj"⟩] := by decide +kernel
  have hmessage : (sharing Options.default inputs ⟨"x.obj"⟩).message =
      "invalid configuration: \"x.obj\" and  would both be written to \"x_surfaces.c\"" := by
    decide +kernel
  refine ⟨hsharers, _, ?_, hmessage, ?_⟩
  · rw [← runInOrder_range]
    exact (getElem?_eq_sharing_iff nestedMeshes (List.Perm.refl _) rfl).mpr
      (sharesAt_of_sharers (by rw [hsharers]; simp))
  · rw [hmessage]
    decide +kernel

end Batch

end CollisionMesh
