import CollisionMesh.Proofs.BatchOutputs
import CollisionMesh.Proofs.HeaderDeclarations

/-!
# Outputs that are linked together

What a generated file defines is named after its symbol, and so is the file. In one directory two
equal symbols make two equal paths, and those a batch refuses. So the files that a batch puts into
one directory define different names, whatever the inputs are called.
-/

namespace CollisionMesh

set_option autoImplicit false

namespace BatchEntry

/-- The names that the generated files of a batch define. -/
def definedNames (entries : List BatchEntry) : List String :=
  (artifacts entries).flatMap fun artifact =>
    [Identifier.arrayName artifact.symbol, Identifier.countName artifact.symbol]

theorem definedNames_eq (entries : List BatchEntry) : definedNames entries =
    (((artifacts entries).map Artifact.symbol).flatMap Declaration.ofSymbol).map
      Declaration.name := by
  rw [definedNames, List.flatMap_map, List.map_flatMap]
  rfl

theorem mem_artifacts {entries : List BatchEntry} {artifact : Artifact} :
    artifact ∈ artifacts entries ↔ ∃ entry ∈ entries, entry.outcome = .ok artifact := by
  simp only [artifacts, List.mem_filterMap, toOption_eq_some_iff]

/-- What files need to go into one program, which tells its constants apart by their names. -/
structure Linkable (entries : List BatchEntry) : Prop where
  symbols : ((artifacts entries).map Artifact.symbol).Nodup
  fileName : ∀ artifact ∈ artifacts entries,
    artifact.path.fileName? = some (Identifier.arrayName artifact.symbol ++ ".c")
  names : (definedNames entries).Nodup
  identifiers : ∀ name ∈ definedNames entries, Identifier.isIdentifier name = true

end BatchEntry

open BatchEntry

/-- In one directory the symbol tells where the output goes. -/
theorem Options.outputFor_eq_of_symbolFor {options : Options} {d : Path}
    (h : options.outputDirectory = some d) {input other : Path}
    (hsymbol : options.symbolFor input = options.symbolFor other) :
    options.outputFor input = options.outputFor other := by
  have hname : options.outputName input = options.outputName other := by
    rw [outputName, outputName, hsymbol]
  rw [options.outputFor_eq_join, options.outputFor_eq_join, h, hname]
  rfl

theorem Job.eq_of_run_ok {job : Job} {fs : FileSystem} {artifact : Artifact}
    (h : (job.run fs).1 = .ok artifact) :
    job.refusal = none ∧ artifact.symbol = job.options.symbolFor job.input ∧
    artifact.path = job.output := by
  have hran := job.ran_run fs
  rw [h] at hran
  generalize (job.run fs).2 = left at hran
  cases hran with
  | written refusal convert _ _ =>
    exact ⟨refusal, (FileSystem.valid_of_convert convert).symbol_eq, rfl⟩

namespace Batch

section Linking

variable {fs : FileSystem} {options : Options} {inputs : List Path} {order : List Nat} {i j : Nat}
  {entry other : BatchEntry} {artifact : Artifact} {d : Path}

theorem exists_input_of_entry (horder : order.Perm (List.range inputs.length))
    (hentry : (runInOrder fs options inputs order).1[i]? = some entry)
    (hok : entry.outcome = .ok artifact) :
    ∃ input, inputs[i]? = some input ∧ refusal? options inputs input = none ∧
      artifact.symbol = options.symbolFor input ∧ artifact.path = options.outputFor input := by
  obtain ⟨hlength, hget⟩ := List.forall₂_iff_get.mp (forall₂_run fs options horder)
  obtain ⟨hi, rfl⟩ := List.getElem?_eq_some_iff.mp hentry
  obtain ⟨_, now, hran⟩ := hget i (hlength ▸ hi) hi
  obtain ⟨hrefusal, hsymbol, hpath⟩ := Job.eq_of_run_ok (hran.symm.trans hok)
  rw [output_jobOf] at hpath
  exact ⟨_, List.getElem?_eq_getElem (hlength ▸ hi), hrefusal, hsymbol, hpath⟩

/-- Equal symbols in one directory would have been refused, for their outputs are the same. -/
theorem symbol_ne_of_ne (horder : order.Perm (List.range inputs.length))
    (h : options.outputDirectory = some d) (hne : i ≠ j)
    (hentry : (runInOrder fs options inputs order).1[i]? = some entry)
    (hother : (runInOrder fs options inputs order).1[j]? = some other) {artifact' : Artifact}
    (hok : entry.outcome = .ok artifact) (hok' : other.outcome = .ok artifact') :
    artifact.symbol ≠ artifact'.symbol := by
  classical
  intro heq
  obtain ⟨input, hinput, hrefusal, hsymbol, _⟩ := exists_input_of_entry horder hentry hok
  obtain ⟨input', hinput', _, hsymbol', _⟩ := exists_input_of_entry horder hother hok'
  have houtput : options.outputFor input' = options.outputFor input :=
    options.outputFor_eq_of_symbolFor h (hsymbol'.symm.trans (heq.symm.trans hsymbol))
  have hshares : SharesAt options inputs i input :=
    ⟨j, input', hne.symm, hinput', by rw [houtput]; exact Path.same_self _⟩
  rw [refusal?_eq_ite options hinput, if_pos hshares] at hrefusal
  cases hrefusal

theorem nodup_symbols (fs : FileSystem) (horder : order.Perm (List.range inputs.length))
    (h : options.outputDirectory = some d) :
    ((artifacts (runInOrder fs options inputs order).1).map Artifact.symbol).Nodup := by
  rw [artifacts, List.nodup_iff_pairwise_ne, List.pairwise_map, List.pairwise_filterMap,
    List.pairwise_iff_getElem]
  intro i j hi hj hlt artifact hartifact artifact' hartifact'
  exact symbol_ne_of_ne horder h (Nat.ne_of_lt hlt) (List.getElem?_eq_getElem hi)
    (List.getElem?_eq_getElem hj)
    (toOption_eq_some_iff.mp hartifact) (toOption_eq_some_iff.mp hartifact')

/-- The files that a batch puts into one directory can be linked together, whatever the inputs are
called and in whatever order they are converted. -/
theorem linkable_runInOrder (fs : FileSystem) (horder : order.Perm (List.range inputs.length))
    (h : options.outputDirectory = some d) :
    Linkable (runInOrder fs options inputs order).1 ∧
      runInOrder fs options inputs (List.range inputs.length) = run fs options inputs := by
  have hsymbols := nodup_symbols fs horder h
  refine ⟨⟨hsymbols, ?fileName, ?names, ?identifiers⟩, runInOrder_range fs options inputs⟩
  case fileName =>
    intro artifact hmem
    obtain ⟨entry, hentry, hok⟩ := mem_artifacts.mp hmem
    obtain ⟨i, hi⟩ := List.mem_iff_getElem?.mp hentry
    obtain ⟨input, _, _, hsymbol, hpath⟩ := exists_input_of_entry horder hi hok
    rw [hpath, hsymbol]
    exact options.fileName?_outputFor input
  case names =>
    rw [definedNames_eq]
    exact Declaration.nodup_names_flatMap hsymbols
  case identifiers =>
    intro name hname
    obtain ⟨artifact, hmem, hname⟩ := List.mem_flatMap.mp hname
    obtain ⟨entry, hentry, hok⟩ := mem_artifacts.mp hmem
    obtain ⟨i, hi⟩ := List.mem_iff_getElem?.mp hentry
    obtain ⟨input, _, _, hsymbol, _⟩ := exists_input_of_entry horder hi hok
    have hidentifier : Identifier.isIdentifier artifact.symbol = true := by
      rw [hsymbol]
      exact options.isIdentifier_symbolFor input
    rcases List.mem_pair.mp hname with rfl | rfl
    · exact Identifier.isIdentifier_arrayName hidentifier
    · exact Identifier.isIdentifier_countName hidentifier

/-- Names that are made the same, names that look like names of generated code, and
names without a letter. -/
def namesakes : FileSystem :=
  let triangle := Node.file "v 0 0 0\nv 1 0 0\nv 0 1 0\nf 1 2 3\n".toUTF8
  ⟨[(["a b.obj"], triangle), (["a_b.obj"], triangle), ([" .obj"], triangle), (["a.obj"], triangle),
    (["a_surfaces.obj"], triangle), (["a_surfaces_count.obj"], triangle), (["n"], .directory),
    (["n", "1.obj"], triangle)], []⟩

/-- The first two are refused; the others go together. -/
theorem linkable_runInOrder_namesakes :
    let options := { Options.default with outputDirectory := some ⟨"out"⟩ }
    let inputs : List Path := [⟨"a b.obj"⟩, ⟨" .obj"⟩, ⟨"a_b.obj"⟩, ⟨"a.obj"⟩, ⟨"a_surfaces.obj"⟩,
      ⟨"a_surfaces_count.obj"⟩, ⟨"n/1.obj"⟩]
    let entries := (runInOrder namesakes options inputs [6, 1, 0, 3, 5, 4, 2]).1
    entries.map (fun entry => entry.outcome.isOk) = [false, true, false, true, true, true, true] ∧
      (artifacts entries).map Artifact.symbol =
        ["level", "a", "a_surfaces", "a_surfaces_count", "_1"] ∧
      Linkable entries := by
  intro options inputs entries
  exact ⟨by decide +kernel, by decide +kernel, (linkable_runInOrder namesakes (by decide) rfl).1⟩

end Linking

end Batch

end CollisionMesh
