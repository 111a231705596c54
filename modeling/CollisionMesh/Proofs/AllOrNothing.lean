import CollisionMesh.Interchange
import CollisionMesh.Proofs.TemporaryFiles

/-!
# All or nothing

A conversion that fails leaves every regular file as it was, wherever it fails; it may have made
directories. One that succeeds has put the complete text, computed from the system as it was before,
at the path of its output, and no other file differs.
-/

namespace CollisionMesh.FileSystem

set_option autoImplicit false

/-- Whether two systems have the same regular files with the same contents, but for one
place if it is given. -/
def SameFiles (fs now : FileSystem) (except : Option Location) : Prop :=
  ∀ location content, except ≠ some location →
    (now.lookup location = some (.file content) ↔ fs.lookup location = some (.file content))

/-- What becomes of the system `fs` by the publishing of what was computed in it. -/
structure AllOrNothing {α : Type} (fs : FileSystem) (output : Path)
    (computed : Except Failure (α × String)) (ran : Except Failure α × FileSystem) : Prop where
  refused : ∀ failure, computed = .error failure → ran = (.error failure, fs)
  failed : ∀ failure, ran.1 = .error failure → SameFiles fs ran.2 none
  complete : ∀ result, ran.1 = .ok result → ∃ text target, computed = .ok (result, text) ∧
    ran.2.locate output = .ok (target, .file text.toUTF8) ∧ ran.2.read output = .ok text.toUTF8 ∧
    SameFiles fs ran.2 (some target)
  directories : ∀ location, fs.lookup location = some .directory →
    ran.2.lookup location = some .directory

variable {fs left : FileSystem} {p : Path} {target : Location}

theorem Grows.sameFiles (h : Grows fs left) (except : Option Location) : SameFiles fs left except :=
  fun location content _ => ⟨h.file location content, h.keeps.lookup location _ List.not_mem_nil⟩

theorem sameFiles_insert (h : Grows fs left) (content : ByteArray) :
    SameFiles fs (left.insert target (.file content)) (some target) := by
  intro location other hne
  rw [lookup_insert_of_ne left (fun heq => hne (congrArg some heq.symm))]
  exact h.sameFiles none location other (by simp)

theorem locate_insert_of_place (h : left.place p = .ok target) (content : ByteArray) :
    (left.insert target (.file content)).locate p = .ok (target, .file content) :=
  locate_of_place h (keeps_of_place h content) (lookup_insert_self left (target_ne_nil h) _)

/-- Writing puts the complete file at its place, or it changes no file. -/
theorem writeFile_cases (fs : FileSystem) (p : Path) (content : ByteArray) :
    (∃ failure left, Grows fs left ∧ fs.writeFile p content = (.error failure, left)) ∨
      ∃ left target, Grows fs left ∧ left.place p = .ok target ∧
        fs.writeFile p content = (.ok (), left.insert target (.file content)) := by
  cases hmade : fs.makeDirectories p.containingDirectory with
  | mk outcome left =>
    have hgrows := grows_makeDirectories hmade
    cases outcome with
    | error fault => exact .inl ⟨_, left, hgrows, writeFile_of_makeDirectories_error hmade content⟩
    | ok _ =>
      have hwrite := writeFile_of_makeDirectories hmade content
      cases hplace : left.place p with
      | error fault =>
        rw [hplace] at hwrite
        exact .inl ⟨_, left, hgrows, hwrite⟩
      | ok target =>
        rw [hplace] at hwrite
        exact .inr ⟨left, target, hgrows, hplace, hwrite⟩

theorem allOrNothing_publish {α : Type} (fs : FileSystem) (output : Path)
    (computed : Except Failure (α × String)) :
    AllOrNothing fs output computed (fs.publish output computed) := by
  cases computed with
  | error failure =>
    refine ⟨?_, fun _ _ => (Grows.refl fs).sameFiles none, ?_, fun _ h => h⟩
    · intro other h
      cases h
      rfl
    · intro result h
      cases h
  | ok computed =>
    obtain ⟨value, text⟩ := computed
    rcases writeFile_cases fs output text.toUTF8 with ⟨failure, left, hgrows, hwrite⟩ |
        ⟨left, target, hgrows, hplace, hwrite⟩
    · have hrun : fs.publish output (.ok (value, text)) = (.error failure, left) := by
        simp only [publish, hwrite]
      rw [hrun]
      refine ⟨?_, fun _ _ => hgrows.sameFiles none, ?_, fun _ => hgrows.keeps.directory⟩
      · intro other h
        cases h
      · intro result h
        cases h
    · have hrun : fs.publish output (.ok (value, text)) =
          (.ok value, left.insert target (.file text.toUTF8)) := by
        simp only [publish, hwrite]
      rw [hrun]
      refine ⟨?_, ?_, ?_, ?_⟩
      · intro other h
        cases h
      · intro failure h
        cases h
      · intro result h
        cases h
        have hlocate := locate_insert_of_place hplace text.toUTF8
        exact ⟨text, target, rfl, hlocate, read_of_locate hlocate, sameFiles_insert hgrows _⟩
      · intro location h
        exact (keeps_of_place hplace _).directory (hgrows.keeps.directory h)

/-- Each of the three ways to write the result of a conversion. -/
theorem conversions_allOrNothing (fs : FileSystem) (options : Options) (input output : Path) :
    AllOrNothing fs output
        ((fs.convert options input).map fun conversion =>
          (conversion.artifact output, conversion.source))
        (fs.convertTo options input output) ∧
      AllOrNothing fs output
        ((fs.scaledTriangles options input).map fun triangles =>
          (triangles.length, TriangleList.text triangles))
        (fs.exportTriangles options input output) ∧
      AllOrNothing fs output
        ((fs.convertTriangles options input).map fun conversion =>
          (conversion.artifact output, conversion.source))
        (fs.convertTrianglesTo options input output) :=
  ⟨allOrNothing_publish fs output _, allOrNothing_publish fs output _,
    allOrNothing_publish fs output _⟩

end CollisionMesh.FileSystem
