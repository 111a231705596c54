import CollisionMesh.Failure
import CollisionMesh.FileSystem.Writing

/-!
# Text files

Reading a whole file as text, and putting a computed text in place. `FileSystem.publish` is
the one way in which conversions write: a text is computed in full first, and a failed
computation writes nothing.
-/

namespace CollisionMesh.FileSystem

set_option autoImplicit false

def readText (fs : FileSystem) (p : Path) : Except FileFault String :=
  match fs.read p with
  | .error fault => .error (.system fault)
  | .ok content =>
    match String.fromUTF8? content with
    | some text => .ok text
    | none => .error .invalidUtf8

/-- Puts a complete file at a path, and makes the directories on the way to it that are missing. The
file is written beside its place and renamed; if that fails, it is removed again. -/
def writeFile (fs : FileSystem) (p : Path) (content : ByteArray) :
    Except Failure Unit × FileSystem :=
  match fs.makeDirectories p.containingDirectory with
  | (.error fault, left) => (.error (.ofSystem p.containingDirectory fault), left)
  | (.ok (), left) =>
    match left.putTemporary p content with
    | .error fault => (.error (.ofSystem p.containingDirectory fault), left)
    | .ok (source, filled) =>
      match filled.rename source p with
      | .error fault => (.error (.ofSystem p fault), filled.remove source)
      | .ok written => (.ok (), written)

/-- Puts a computed text at a path; the outcome is what was computed beside it. -/
def publish {α : Type} (fs : FileSystem) (p : Path) (computed : Except Failure (α × String)) :
    Except Failure α × FileSystem :=
  match computed with
  | .error failure => (.error failure, fs)
  | .ok (result, text) =>
    match fs.writeFile p text.toUTF8 with
    | (.error failure, left) => (.error failure, left)
    | (.ok (), left) => (.ok result, left)

@[simp] theorem publish_error {α : Type} (fs : FileSystem) (p : Path) (failure : Failure) :
    fs.publish (α := α) p (.error failure) = (.error failure, fs) := rfl

end CollisionMesh.FileSystem
