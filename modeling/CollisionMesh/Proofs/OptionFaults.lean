import CollisionMesh.Conversion
import CollisionMesh.Proofs.Traversal

/-!
# Failures for the options

A conversion fails for its options just when they cannot be honoured, whatever the input and the
output are. Nothing that is read, cut or written fails in that way.
-/

namespace CollisionMesh

set_option autoImplicit false

/-- Whether a failure is not one of options. -/
def Failure.IsElsewhere (failure : Failure) : Prop := ∀ fault, failure ≠ .invalidOptions fault

section Elsewhere

theorem isElsewhere_file (path : Path) (fault : FileFault) :
    Failure.IsElsewhere (.file path fault) := by
  rintro _ ⟨⟩

theorem isElsewhere_malformedLine (path : Path) (line : Nat) (content : String)
    (fault : LineFault) :
    Failure.IsElsewhere (.malformedLine path line content fault) := by
  rintro _ ⟨⟩

theorem failsElsewhere_addStatement (policy : VertexPolicy) (reading : Reading) (line : Nat)
    (content : String) (statement : Statement) :
    FailsAs Failure.IsElsewhere (reading.addStatement policy line content statement) := by
  unfold Reading.addStatement
  cases statement with
  | other | vertex position | material name => exact failsAs_ok _
  | malformedVertex fault =>
    cases policy with
    | fail => exact failsAs_error (isElsewhere_malformedLine _ _ _ _)
    | skip => exact failsAs_ok _
  | face references =>
    simp only
    split
    · exact failsAs_ok _
    · exact failsAs_ok _
  | malformed fault => exact failsAs_error (isElsewhere_malformedLine _ _ _ _)

theorem failsElsewhere_load (fs : FileSystem) (policy : VertexPolicy) (path : Path) :
    FailsAs Failure.IsElsewhere (Mesh.load fs policy path) := by
  refine FailsAs.bind ?_ fun content => FailsAs.bind ?_ fun reading => failsAs_ok _
  · cases fs.read path with
    | error fault => exact failsAs_error (isElsewhere_file _ _)
    | ok content => exact failsAs_ok content
  · refine failsAs_foldlM (fun reading line => ?_) _ _
    unfold Reading.add
    split
    · exact failsAs_error (isElsewhere_file _ _)
    · exact failsElsewhere_addStatement _ _ _ _ _

theorem failsElsewhere_surfaceRecords (mesh : Mesh) (options : Options) :
    FailsAs Failure.IsElsewhere (mesh.surfaceRecords options) := by
  refine FailsAs.bind (FailsAs.bind (failsAs_mapM (fun face => ?_) _) fun _ => failsAs_ok _)
    fun ts => ?_
  · refine FailsAs.bind (failsAs_mapM (fun index => ?_) _) fun _ => failsAs_ok _
    unfold Mesh.resolve
    split
    · exact failsAs_ok _
    · exact failsAs_error (by rintro _ ⟨⟩)
  · split
    · exact failsAs_error (by rintro _ ⟨⟩)
    · exact failsAs_ok _

theorem failsElsewhere_writeFile (fs : FileSystem) (p : Path) (content : ByteArray) :
    FailsAs Failure.IsElsewhere (fs.writeFile p content).1 := by
  unfold FileSystem.writeFile
  split
  · exact failsAs_error (isElsewhere_file _ _)
  · split
    · exact failsAs_error (isElsewhere_file _ _)
    · split
      · exact failsAs_error (isElsewhere_file _ _)
      · exact failsAs_ok ()

end Elsewhere

theorem Options.check_eq_error_iff (options : Options) (fault : OptionsFault) :
    options.check = .error (.invalidOptions fault) ↔ options.validate = .error fault := by
  unfold check
  cases options.validate <;> simp [Except.mapError]

namespace FileSystem

variable (fs : FileSystem) (options : Options) (input output : Path) (fault : OptionsFault)

theorem convert_eq_invalidOptions_iff :
    fs.convert options input = .error (.invalidOptions fault) ↔
      options.validate = .error fault := by
  rw [← options.check_eq_error_iff, convert, bind_eq_error_iff]
  constructor
  · rintro (hcheck | ⟨_, _, hlater⟩)
    · exact hcheck
    · have helsewhere : Failure.IsElsewhere (.invalidOptions fault) := by
        refine FailsAs.bind ?_ (fun mesh => FailsAs.bind ?_ fun records => ?_) _ hlater
        · exact failsElsewhere_load fs options.malformedVertex input
        · exact failsElsewhere_surfaceRecords mesh options
        · exact failsAs_ok _
      exact absurd rfl (helsewhere fault)
  · exact .inl

/-- A conversion fails for its options just when the options are refused as such. -/
theorem convertTo_eq_invalidOptions_iff :
    (fs.convertTo options input output).1 = .error (.invalidOptions fault) ↔
      options.validate = .error fault := by
  rw [← fs.convert_eq_invalidOptions_iff options input fault, convertTo]
  cases fs.convert options input with
  | error failure => simp [Except.map]
  | ok conversion =>
    have helsewhere := failsElsewhere_writeFile fs output conversion.source.toUTF8
    simp only [Except.map, publish, reduceCtorEq, iff_false]
    split
    · rename_i failure _ hwrite
      rw [hwrite] at helsewhere
      exact fun heq => helsewhere failure rfl fault (Except.error.inj heq)
    · simp

end FileSystem

end CollisionMesh
