import CollisionMesh.CommandLine
import CollisionMesh.Proofs.RunEffects
import CollisionMesh.Proofs.Scanning
import CollisionMesh.Proofs.ValidSurfaces

/-!
# Names that nobody chose

Without a symbol, the generated file is called after the stem of its input. An identifier is called
after itself, and the ending of an array is not empty, so no input has the name of its own output.
What is written then is not where the input is, in whatever directory it is put.
-/

namespace CollisionMesh

set_option autoImplicit false

open FileSystem CommandLine

namespace Options

variable {options : Options} {input : Path} {name : String}

theorem isIdentifier_arrayName_symbolFor (options : Options) (input : Path) :
    Identifier.isIdentifier (Identifier.arrayName (options.symbolFor input)) = true :=
  Identifier.isIdentifier_arrayName (options.isIdentifier_symbolFor input)

/-- The stem of the name of an output is an identifier, and that is longer than the
symbol it would lead to. -/
theorem outputName_ne_fileName (hsymbol : options.symbol = none)
    (hname : input.fileName? = some name) :
    options.outputName input ≠ name := by
  rintro rfl
  have hidentifier := options.isIdentifier_arrayName_symbolFor input
  have hstem : input.fileStem? = some (Identifier.arrayName (options.symbolFor input)) := by
    have hne : (Identifier.arrayName (options.symbolFor input)).toList ≠ [] :=
      ((Identifier.isIdentifier_iff _).mp hidentifier).1
    rw [Path.fileStem?, hname, Option.map_some, splitExtension_outputName, String.ofList_toList]
  have hsymbolFor : options.symbolFor input = Identifier.arrayName (options.symbolFor input) := by
    have hempty : (Identifier.arrayName (options.symbolFor input)).isEmpty = false := by
      simpa using fun h =>
        ((Identifier.isIdentifier_iff _).mp hidentifier).1 (String.toList_eq_nil_iff.mpr h)
    conv => lhs; rw [symbolFor, hsymbol, hstem]
    simp only [Option.getD_none, Option.getD_some, Identifier.sanitize_of_isIdentifier hidentifier,
      hempty, Bool.false_eq_true, if_false]
  have hlength := congrArg String.length hsymbolFor
  rw [Identifier.arrayName, String.length_append] at hlength
  have hending : "_surfaces".length = 9 := rfl
  omega

theorem components_outputFor {parent : Path} (options : Options) (h : input.parent? = some parent) :
    (options.outputFor input).components =
      (options.outputDirectory.getD parent).components ++ [.name (options.outputName input)] := by
  rw [outputFor_eq_join, h, Path.components_join _ (options.isName_outputName input)]
  cases options.outputDirectory <;> rfl

end Options

namespace FileSystem

variable {fs : FileSystem} {location : Location}

/-- Publishing changes no file but at the place that the output leads to. -/
theorem exists_changes_publish {α : Type} (fs : FileSystem) (output : Path)
    (computed : Except Failure (α × String)) :
    ∃ places, Changes fs (fs.publish output computed).2 places ∧
      ∀ place ∈ places, place = output.destination fs.workingDirectory := by
  cases computed with
  | error failure => exact ⟨[], Changes.refl fs, by simp⟩
  | ok computed =>
    obtain ⟨value, text⟩ := computed
    rcases writeFile_cases fs output text.toUTF8 with ⟨failure, left, hgrows, hwrite⟩ |
        ⟨left, target, hgrows, hplace, hwrite⟩
    · refine ⟨[], ?_, by simp⟩
      rw [publish, hwrite]
      exact hgrows.changes
    · refine ⟨[target], ?_, fun place hmem => ?_⟩
      · rw [publish, hwrite]
        exact hgrows.changes.trans (changes_insert hplace _)
      · rw [List.mem_singleton.mp hmem, ← hgrows.keeps.workingDirectory]
        exact destination_of_place hplace

theorem locate_publish {α : Type} {p output : Path} {node : Node}
    (computed : Except Failure (α × String)) (h : fs.locate p = .ok (location, node))
    (hne : p.destination fs.workingDirectory ≠ output.destination fs.workingDirectory) :
    (fs.publish output computed).2.locate p = .ok (location, node) := by
  obtain ⟨places, hchanges, hplaces⟩ := exists_changes_publish fs output computed
  refine hchanges.keeps.locate_of_ok h fun hmem => hne ?_
  rw [← destination_of_locate h]
  exact hplaces location hmem

end FileSystem

namespace CommandLine.Command

theorem snd_run_convert (fs : FileSystem) (options : Options) (input : Path) :
    ((Command.convert input none options).run fs).2 =
      (fs.convertTo options input (options.outputFor input)).2 := by
  rw [Command.run, Option.getD_none]

theorem snd_run_importTriangles (fs : FileSystem) (options : Options) (input : Path) :
    ((Command.importTriangles input none options).run fs).2 =
      (fs.convertTrianglesTo options input (options.outputFor input)).2 := by
  rw [Command.run, Option.getD_none]

end CommandLine.Command

/-- Whatever an input is called, the file that is generated from it without a symbol has another
name: an identifier and the ending `.c`. It lies in the directory of the options or else in that of
the input, and both conversions leave the input as it was. -/
theorem Options.outputFor_spares_input {options : Options} {input : Path} {name : String}
    (hsymbol : options.symbol = none) (hname : input.fileName? = some name) :
    ∃ stem parent, Identifier.isIdentifier stem = true ∧ '/' ∉ (stem ++ ".c").toList ∧
      stem ++ ".c" ≠ name ∧
      input.parent? = some parent ∧ input.components = parent.components ++ [.name name] ∧
      (options.outputFor input).components =
        (options.outputDirectory.getD parent).components ++ [.name (stem ++ ".c")] ∧
      (options.outputFor input).fileName? = some (stem ++ ".c") ∧
      ∀ (fs : FileSystem) (location : Location) (content : ByteArray),
        fs.locate input = .ok (location, .file content) →
        ∀ command ∈
            [Command.convert input none options, Command.importTriangles input none options],
          (command.run fs).2.locate input = .ok (location, .file content) := by
  obtain ⟨parent, hparent, hinput⟩ := Path.exists_parent_of_fileName? hname
  have houtput := components_outputFor options hparent
  have hne := outputName_ne_fileName hsymbol hname
  refine ⟨_, parent, options.isIdentifier_arrayName_symbolFor input,
    (options.isName_outputName input).2.2.2, hne, hparent, hinput, houtput,
    options.fileName?_outputFor input, ?_⟩
  intro fs location content hlocate command hcommand
  have hplace : input.destination fs.workingDirectory ≠
      (options.outputFor input).destination fs.workingDirectory :=
    fun heq => hne (Path.eq_of_destination_eq hinput houtput heq).symm
  rcases List.mem_cons.mp hcommand with rfl | hcommand
  · rw [Command.snd_run_convert, convertTo]
    exact locate_publish _ hlocate hplace
  · rw [List.mem_singleton.mp hcommand, Command.snd_run_importTriangles, convertTrianglesTo]
    exact locate_publish _ hlocate hplace

/-- An input that is called like an output. -/
def generatedLookalike : Path := ⟨"maps//hill_surfaces.c"⟩

def lookalikeMap : FileSystem :=
  ⟨[(["maps"], .directory),
    (["maps", "hill_surfaces.c"], .file "v 0 0 0\nv 1 0 0\nv 0 1 0\nf 1 2 3\n".toUTF8)], []⟩

/-- The mesh of such a name is converted, to a file beside it, and it can still
be found where it was. -/
theorem Options.outputFor_spares_input_surfaces :
    Options.default.symbol = none ∧ generatedLookalike.fileName? = some "hill_surfaces.c" ∧
    (∃ stem, Identifier.isIdentifier stem = true ∧ stem ++ ".c" ≠ "hill_surfaces.c" ∧
      (Options.default.outputFor generatedLookalike).fileName? = some (stem ++ ".c")) ∧
    ∃ location content,
      lookalikeMap.locate generatedLookalike = .ok (location, .file content) ∧
      ((Command.convert generatedLookalike none Options.default).run lookalikeMap).1 =
        .success "  maps/hill_surfaces_surfaces.c (1 surfaces)\n" ∧
      ∀ command ∈ [Command.convert generatedLookalike none Options.default,
          Command.importTriangles generatedLookalike none Options.default],
        (command.run lookalikeMap).2.locate generatedLookalike = .ok (location, .file content) := by
  have hsymbol : Options.default.symbol = none := rfl
  have hname : generatedLookalike.fileName? = some "hill_surfaces.c" := by decide
  have hlocate : lookalikeMap.locate generatedLookalike = .ok (["maps", "hill_surfaces.c"],
      .file "v 0 0 0\nv 1 0 0\nv 0 1 0\nf 1 2 3\n".toUTF8) := rfl
  obtain ⟨stem, _, hstem, _, hne, _, _, _, houtput, hspared⟩ :=
    Options.outputFor_spares_input hsymbol hname
  exact ⟨hsymbol, hname, ⟨stem, hstem, hne, houtput⟩, _, _, hlocate, by decide +kernel,
    hspared lookalikeMap _ _ hlocate⟩

end CollisionMesh
