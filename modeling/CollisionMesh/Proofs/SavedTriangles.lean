import CollisionMesh.Proofs.AllOrNothing
import CollisionMesh.Proofs.MeshReading
import CollisionMesh.Proofs.TriangleListText

/-!
# Saved triangles are loaded back

A list of triangles has numbers for all its coordinates: what axes and scale may make of a number,
an infinity or a NaN, is saved as a stand-in. So the file of a list is read back whole, number by
number, as far as the digits of a single number are.
-/

namespace CollisionMesh

set_option autoImplicit false

theorem Binary64.isFinite_toListed (x : Binary64) : x.toListed.isFinite = true := by
  cases x with
  | nan => rfl
  | infinite negative => cases negative <;> decide +kernel
  | finite negative code => rfl

/-- Stand-ins are read back, so only numbers that a list keeps as they are can fail to. -/
theorem readsBack_toListed {x : Binary64} (h : x.isFinite = true → TriangleList.ReadsBack x) :
    TriangleList.ReadsBack x.toListed := by
  cases x with
  | nan => decide +kernel
  | infinite negative => cases negative <;> decide +kernel
  | finite negative code => exact h rfl

def Triangle.listedCorners (options : Options) (t : Triangle Binary64) : Corners Binary64 :=
  (t.scaledCorners options).map fun p => p.map Binary64.toListed

namespace Triangle

theorem components_listedCorners (options : Options) (t : Triangle Binary64) :
    (t.listedCorners options).components =
      (t.scaledCorners options).components.map Binary64.toListed := by
  rfl

theorem isFinite_listedCorners (options : Options) (t : Triangle Binary64) {x : Binary64}
    (h : x ∈ (t.listedCorners options).components) : x.isFinite = true := by
  rw [components_listedCorners] at h
  obtain ⟨y, _, rfl⟩ := List.mem_map.mp h
  exact y.isFinite_toListed

end Triangle

namespace FileSystem

/-- The triangles of the mesh at a path, and the mesh; there is at least one. -/
def triangles (fs : FileSystem) (options : Options) (input : Path) :
    Except Failure (Mesh × List (Triangle Binary64)) := do
  options.check
  let mesh ← Mesh.load fs options.malformedVertex input
  let triangles ← mesh.triangulate
  if triangles.isEmpty then .error (.noFaces input) else return (mesh, triangles)

variable (fs : FileSystem) (options : Options) (input : Path)

theorem scaledTriangles_eq_map :
    fs.scaledTriangles options input =
      (fs.triangles options input).map fun front =>
        front.2.map (Triangle.listedCorners options) := by
  unfold scaledTriangles triangles
  cases options.check with
  | error failure => rfl
  | ok _ =>
    simp only [bind, Except.bind]
    cases Mesh.load fs options.malformedVertex input with
    | error failure => rfl
    | ok mesh =>
      simp only
      cases mesh.triangulate with
      | error failure => rfl
      | ok ts => cases ts <;> rfl

variable {fs options input}

theorem triangulate_of_triangles {mesh : Mesh} {ts : List (Triangle Binary64)}
    (h : fs.triangles options input = .ok (mesh, ts)) :
    Mesh.load fs options.malformedVertex input = .ok mesh ∧ mesh.triangulate = .ok ts ∧
    ts ≠ [] := by
  obtain ⟨_, _, h⟩ := (bind_eq_ok_iff _ _ _).mp h
  obtain ⟨loaded, hload, h⟩ := (bind_eq_ok_iff _ _ _).mp h
  obtain ⟨cut, hcut, h⟩ := (bind_eq_ok_iff _ _ _).mp h
  split at h
  · cases h
  · rename_i hempty
    cases h
    exact ⟨hload, hcut, by simpa using hempty⟩

/-- The digits of every finite coordinate that is saved for an input read back as that
coordinate. Numbers are read in steps, each of which rounds, so the digits of some numbers
are read as a neighbour. -/
def DigitsReadBack (fs : FileSystem) (options : Options) (input : Path) : Prop :=
  ∀ front ∈ (fs.triangles options input).toOption, ∀ t ∈ front.2,
    ∀ x ∈ (t.scaledCorners options).components, x.isFinite = true → TriangleList.ReadsBack x

instance (fs : FileSystem) (options : Options) (input : Path) :
    Decidable (fs.DigitsReadBack options input) :=
  inferInstanceAs (Decidable (∀ _ ∈ _, _))

example : ¬ TriangleList.ReadsBack (⟨false, 31245270191439438, -15⟩ : Decimal).toBinary64 := by
  decide +kernel

theorem readsBack_of_digits (hdigits : fs.DigitsReadBack options input) {mesh : Mesh}
    {ts : List (Triangle Binary64)} (h : fs.triangles options input = .ok (mesh, ts)) :
    ∀ t ∈ ts.map (Triangle.listedCorners options), ∀ x ∈ t.components,
      TriangleList.ReadsBack x := by
  intro corners hcorners x hx
  obtain ⟨t, ht, rfl⟩ := List.mem_map.mp hcorners
  rw [Triangle.components_listedCorners] at hx
  obtain ⟨y, hy, rfl⟩ := List.mem_map.mp hx
  exact readsBack_toListed (hdigits (mesh, ts) (by rw [h]; rfl) t ht y hy)

theorem readText_of_read {now : FileSystem} {p : Path} {text : String}
    (h : now.read p = .ok text.toUTF8) : now.readText p = .ok text := by
  have hdecode : String.fromUTF8? text.toUTF8 = some text := by
    have hvalid : text.toUTF8.IsValidUTF8 := text.isValidUTF8
    rw [String.fromUTF8?, dif_pos hvalid]
    rfl
  rw [readText, h]
  simp only [hdecode]

theorem loadTriangles_of_read {now : FileSystem} {json : Path} {ts : List (Corners Binary64)}
    (hread : now.read json = .ok (TriangleList.text ts).toUTF8)
    (hback : ∀ t ∈ ts, ∀ x ∈ t.components, TriangleList.ReadsBack x) :
    now.loadTriangles json = .ok ts := by
  simp only [loadTriangles, readText_of_read hread, Except.mapError, bind, Except.bind,
    TriangleList.ofText?_text hback]

/-- What stands in the file after a list was saved. -/
theorem exists_of_exportTriangles {json : Path} {count : Nat} {written : FileSystem}
    (h : fs.exportTriangles options input json = (.ok count, written)) :
    ∃ ts, fs.scaledTriangles options input = .ok ts ∧ ts.length = count ∧
      written.read json = .ok (TriangleList.text ts).toUTF8 := by
  have hpublish :=
    allOrNothing_publish fs json ((fs.scaledTriangles options input).map fun triangles =>
    (triangles.length, TriangleList.text triangles))
  rw [← exportTriangles, h] at hpublish
  obtain ⟨text, _, hcomputed, _, hread, _⟩ := hpublish.complete count rfl
  obtain ⟨ts, hts, hpair⟩ := exists_of_map_eq_ok hcomputed
  cases hpair
  exact ⟨ts, hts, rfl, hread⟩

/-- A saving that succeeds saves at least one triangle and numbers only, and gives the count of its
triangles. What it leaves behind is loaded as these triangles, as long as digits read back. -/
theorem loadTriangles_of_exportTriangles {fs : FileSystem} {options : Options} {input json : Path}
    {count : Nat} {written : FileSystem}
    (h : fs.exportTriangles options input json = (.ok count, written)) :
    ∃ ts, fs.scaledTriangles options input = .ok ts ∧ ts.length = count ∧ 1 ≤ count ∧
      (∀ t ∈ ts, ∀ x ∈ t.components, x.isFinite = true) ∧
      (fs.DigitsReadBack options input → written.loadTriangles json = .ok ts) := by
  obtain ⟨ts, hscaled, rfl, hread⟩ := exists_of_exportTriangles h
  have hmap := hscaled
  rw [scaledTriangles_eq_map] at hmap
  obtain ⟨⟨mesh, cut⟩, hfront, rfl⟩ := exists_of_map_eq_ok hmap
  obtain ⟨_, _, hne⟩ := triangulate_of_triangles hfront
  refine ⟨_, hscaled, rfl, ?_, ?_, ?_⟩
  · rw [List.length_map]
    exact List.length_pos_iff.mpr hne
  · intro t ht x hx
    obtain ⟨t, _, rfl⟩ := List.mem_map.mp ht
    exact t.isFinite_listedCorners options hx
  · intro hdigits
    exact loadTriangles_of_read hread (readsBack_of_digits hdigits hfront)

/-- Coordinates that overflow, are infinite, zero or no number, and some too small
for all their digits. -/
theorem loadTriangles_of_exportTriangles_extremes :
    let fs : FileSystem :=
      ⟨[(["a.obj"], .file "v 1e307 -inf nan\nv -0 5e-324 -1e-320\nv 0.1 2 1e-8\nf 1 2 3\n".toUTF8)],
        []⟩
    let bits := [[0x7E37E43C8800759C, 0, 0x7E37E43C8800759C,
      0x8000000000000000, 0x8000000000018B50, 0x8000000000000032,
      0x4014000000000000, 0x3EA0C6F7A0B5ED8D, 0xC059000000000000]]
    ∃ written ts, fs.exportTriangles Options.default ⟨"a.obj"⟩ ⟨"a.json"⟩ = (.ok 1, written) ∧
      fs.DigitsReadBack Options.default ⟨"a.obj"⟩ ∧ written.loadTriangles ⟨"a.json"⟩ = .ok ts ∧
      ts.map (fun t => t.components.map Binary64.toBits) = bits := by
  intro fs bits
  have hdigits : fs.DigitsReadBack Options.default ⟨"a.obj"⟩ := by decide +kernel
  have hcount : (fs.exportTriangles Options.default ⟨"a.obj"⟩ ⟨"a.json"⟩).1 = .ok 1 := by
    decide +kernel
  have hbits : (fs.scaledTriangles Options.default ⟨"a.obj"⟩).map (fun ts =>
      ts.map fun t => t.components.map Binary64.toBits) = .ok bits := by decide +kernel
  generalize hexport : fs.exportTriangles Options.default ⟨"a.obj"⟩ ⟨"a.json"⟩ = exported at hcount
  obtain ⟨outcome, written⟩ := exported
  obtain rfl : outcome = .ok 1 := hcount
  obtain ⟨ts, hscaled, _, _, _, hloaded⟩ := loadTriangles_of_exportTriangles hexport
  rw [hscaled] at hbits
  exact ⟨written, ts, rfl, hdigits, hloaded hdigits, Except.ok.inj hbits⟩

end FileSystem

end CollisionMesh
