import CollisionMesh.Proofs.PathComponents
import CollisionMesh.Proofs.PathOrder
import CollisionMesh.Proofs.Scanning

/-!
# What a scan finds

A walk comes by all entries under a root, in an order that is up to the system. Of those to
some depth a scan takes the files that have the name of a mesh, and puts them in the order
of paths. No two of them are on a level in that order, so the outcome is told by what is
there, and not by the walk.
-/

namespace CollisionMesh

set_option autoImplicit false

open FileSystem

def Node.isFile : Node → Bool
  | file _ => true
  | directory => false

theorem Node.isFile_iff (node : Node) : node.isFile = true ↔ ∃ content, node = .file content := by
  cases node <;> simp [isFile]

namespace Path

/-- Whether the file name is some stem, a point and `obj` in any case. A point at the
start is no end of a stem. -/
def HasMeshName (p : Path) : Prop :=
  ∃ stem extension, p.fileName? = some (String.ofList (stem ++ '.' :: extension)) ∧ stem ≠ [] ∧
    extension.map Char.toLower = "obj".toList

theorem eq_of_splitExtension {name stem extension : List Char}
    (h : splitExtension name = (stem, some extension)) :
    name = stem ++ '.' :: extension ∧ stem ≠ [] := by
  have hname := List.takeWhile_append_dropWhile (p := fun c => c != '.') (l := name.reverse)
  unfold splitExtension at h
  split at h
  · cases h
  · rename_i hne
    cases h
    refine ⟨?_, hne⟩
    cases hback : name.reverse.dropWhile fun c => c != '.' with
    | nil => exact absurd (by rw [hback]; rfl) hne
    | cons c more =>
      have hpoint :=
        List.head_dropWhile_not (fun c => c != '.') (l := name.reverse) (by simp [hback])
      simp only [hback, List.head_cons, bne_eq_false_iff_eq] at hpoint
      rw [hback, hpoint] at hname
      have hreverse := congrArg List.reverse hname
      rw [List.reverse_reverse, List.reverse_append, List.reverse_cons,
        List.append_assoc] at hreverse
      rw [hpoint, List.reverse_cons, List.dropLast_concat]
      exact hreverse.symm

theorem isMesh_iff (p : Path) : p.isMesh = true ↔ p.HasMeshName := by
  constructor
  · intro h
    obtain ⟨extension, hextension, hlower⟩ := (Option.any_eq_true _ _).mp h
    obtain ⟨name, hname, hsplit⟩ := Option.bind_eq_some_iff.mp hextension
    obtain ⟨cs, hcs, rfl⟩ := Option.map_eq_some_iff.mp hsplit
    obtain ⟨heq, hne⟩ := eq_of_splitExtension (Prod.ext rfl hcs)
    rw [String.toList_ofList, beq_iff_eq] at hlower
    refine ⟨_, cs, ?_, hne, hlower⟩
    rw [hname, ← heq, String.ofList_toList]
  · rintro ⟨stem, extension, hname, hne, hlower⟩
    have hpoint : '.' ∉ extension := by
      intro hmem
      have hmem' : Char.toLower '.' ∈ "obj".toList := hlower ▸ List.mem_map_of_mem hmem
      exact absurd hmem' (by decide)
    rw [isMesh, extension?, hname, Option.bind_some]
    simp only [String.toList_ofList, splitExtension_append hne hpoint]
    simpa using hlower

end Path

namespace FileSystem

/-- Whether a walk from a root comes by every entry once: by the root, by what is in it, and, if it
enters directories, by whatever is further down. Each entry goes by the path that leads to it. -/
structure Visits (fs : FileSystem) (root : Path) (base : Location) (recursive : Bool)
    (visited : List (Path × Node)) : Prop where
  nodup : visited.Nodup
  mem_iff : ∀ p node, (p, node) ∈ visited ↔
    ∃ ns, fs.lookup (base ++ ns) = some node ∧ p = extendPath root ns ∧
      (recursive = true ∨ ns.length ≤ 1)

/-- The mesh files among entries, in the order of paths. -/
def collected (visited : List (Path × Node)) : List Path :=
  ((visited.filter fun entry => entry.2.isFile && entry.1.isMesh).map Prod.fst).mergeSort Path.le

variable {fs : FileSystem} {root : Path} {base : Location} {recursive : Bool}

theorem isName_of_lookup (hfs : fs.WellFormed) {location : Location} {ns : List String}
    {node : Node} (h : fs.lookup (location ++ ns) = some node) : ∀ n ∈ ns, IsName n := by
  intro n hn
  have hmem : n ∈ location ++ ns := List.mem_append_right location hn
  exact hfs.named _ (mem_nodes_of_lookup h (List.ne_nil_of_mem hmem)) n hmem

namespace Visits

variable {visited others : List (Path × Node)}

theorem eq_of_same (hfs : fs.WellFormed) (h : fs.Visits root base recursive visited)
    {a b : Path × Node} (ha : a ∈ visited) (hb : b ∈ visited) (hsame : a.1.same b.1 = true) :
    a = b := by
  obtain ⟨ns, hlookup, hpath, _⟩ := (h.mem_iff a.1 a.2).mp ha
  obtain ⟨ms, hlookup', hpath', _⟩ := (h.mem_iff b.1 b.2).mp hb
  rw [hpath, hpath'] at hsame
  have hnames :=
    Path.eq_of_extendPath_same (isName_of_lookup hfs hlookup) (isName_of_lookup hfs hlookup') hsame
  rw [hnames, hlookup', Option.some.injEq] at hlookup
  exact Prod.ext (by rw [hpath, hpath', hnames]) hlookup.symm

theorem mem_collected_iff (h : fs.Visits root base recursive visited) (p : Path) :
    p ∈ collected visited ↔
      ∃ ns content, fs.lookup (base ++ ns) = some (.file content) ∧ p = extendPath root ns ∧
        (recursive = true ∨ ns.length ≤ 1) ∧ p.HasMeshName := by
  rw [collected, List.mem_mergeSort, List.mem_map]
  simp only [List.mem_filter, Bool.and_eq_true, Path.isMesh_iff, Node.isFile_iff]
  constructor
  · rintro ⟨⟨_, _⟩, ⟨hmem, ⟨content, rfl⟩, hmesh⟩, rfl⟩
    obtain ⟨ns, hlookup, hpath, hdepth⟩ := (h.mem_iff _ _).mp hmem
    exact ⟨ns, content, hlookup, hpath, hdepth, hmesh⟩
  · rintro ⟨ns, content, hlookup, hpath, hdepth, hmesh⟩
    exact ⟨(p, .file content),
      ⟨(h.mem_iff _ _).mpr ⟨ns, hlookup, hpath, hdepth⟩, ⟨content, rfl⟩, hmesh⟩, rfl⟩

theorem pairwise_collected (hfs : fs.WellFormed) (h : fs.Visits root base recursive visited) :
    (collected visited).Pairwise Path.Precedes := by
  have hapart : (collected visited).Pairwise fun p q => ¬p.same q = true := by
    refine ((List.mergeSort_perm _ Path.le).pairwise_iff fun hne => by rwa [Path.same_comm]).mpr ?_
    rw [List.pairwise_map]
    refine (h.nodup.filter _).imp_of_mem fun ha hb hne hsame => hne ?_
    exact h.eq_of_same hfs (List.mem_filter.mp ha).1 (List.mem_filter.mp hb).1 hsame
  exact ((Path.pairwise_mergeSort _).and hapart).imp fun hpq => Path.precedes_of_le hpq.1 hpq.2

theorem collected_eq (hfs : fs.WellFormed) (h : fs.Visits root base recursive visited)
    (h' : fs.Visits root base recursive others) : collected visited = collected others :=
  Path.eq_of_pairwise_precedes (h.pairwise_collected hfs) (h'.pairwise_collected hfs)
    fun p => (h.mem_collected_iff p).trans (h'.mem_collected_iff p).symm

/-- What a scan without directories finds is what one with them finds, down to
one name under the root. -/
theorem collected_shallow (hfs : fs.WellFormed) (h : fs.Visits root base true visited)
    (h' : fs.Visits root base false others) :
    collected others =
      (collected visited).filter fun p => p.components.length ≤ root.components.length + 1 := by
  refine Path.eq_of_pairwise_precedes (h'.pairwise_collected hfs)
    ((h.pairwise_collected hfs).filter _) fun p => ?_
  rw [List.mem_filter, h.mem_collected_iff, h'.mem_collected_iff]
  have hdepth : ∀ ns content, fs.lookup (base ++ ns) = some (.file content) →
      p = extendPath root ns →
      (p.components.length ≤ root.components.length + 1 ↔ ns.length ≤ 1) := by
    rintro ns content hlookup rfl
    rw [Path.components_extendPath (isName_of_lookup hfs hlookup), List.length_append,
      List.length_map]
    omega
  constructor
  · rintro ⟨ns, content, hlookup, hpath, hshallow, hmesh⟩
    have hlength : ns.length ≤ 1 := hshallow.resolve_left (by simp)
    exact ⟨⟨ns, content, hlookup, hpath, .inl rfl, hmesh⟩,
      decide_eq_true ((hdepth ns content hlookup hpath).mpr hlength)⟩
  · rintro ⟨⟨ns, content, hlookup, hpath, _, hmesh⟩, hshallow⟩
    have hlength := (hdepth ns content hlookup hpath).mp (of_decide_eq_true hshallow)
    exact ⟨ns, content, hlookup, hpath, .inr hlength, hmesh⟩

end Visits

section Entries

/-- The names that lead from a directory down to a location, if a scan goes so far. -/
def namesBelow? (base : Location) (recursive : Bool) (location : Location) : Option (List String) :=
  (namesUnder base location).filter fun ns => decide (ns ≠ [] ∧ (recursive = true ∨ ns.length ≤ 1))

theorem namesBelow?_eq_some_iff (location : Location) (ns : List String) :
    namesBelow? base recursive location = some ns ↔
      location = base ++ ns ∧ ns ≠ [] ∧ (recursive = true ∨ ns.length ≤ 1) := by
  rw [namesBelow?, Option.filter_eq_some_iff, decide_eq_true_eq]
  refine and_congr_left fun _ => ?_
  unfold namesUnder
  constructor
  · intro h
    split at h
    · rename_i hprefix
      obtain ⟨rest, rfl⟩ := List.isPrefixOf_iff_prefix.mp hprefix
      rw [List.drop_left, Option.some.injEq] at h
      rw [h]
    · cases h
  · rintro rfl
    rw [if_pos (List.isPrefixOf_iff_prefix.mpr (List.prefix_append base ns)), List.drop_left]

/-- The entries from a root down, in the order in which the system has them. -/
def entriesFrom (fs : FileSystem) (root : Path) (base : Location) (node : Node) (recursive : Bool) :
    List (Path × Node) :=
  (root, node) :: fs.nodes.filterMap fun entry =>
    (namesBelow? base recursive entry.1).map fun ns => (extendPath root ns, entry.2)

variable {node : Node}

theorem mem_below_iff (hfs : fs.WellFormed) (p : Path) (found : Node) :
    ((p, found) ∈ fs.nodes.filterMap fun entry =>
        (namesBelow? base recursive entry.1).map fun ns => (extendPath root ns, entry.2)) ↔
      ∃ ns, ns ≠ [] ∧ fs.lookup (base ++ ns) = some found ∧ p = extendPath root ns ∧
        (recursive = true ∨ ns.length ≤ 1) := by
  rw [List.mem_filterMap]
  constructor
  · rintro ⟨⟨location, found'⟩, hmem, hbelow⟩
    obtain ⟨ns, hnames, hpair⟩ := Option.map_eq_some_iff.mp hbelow
    obtain ⟨rfl, hne, hdepth⟩ := (namesBelow?_eq_some_iff location ns).mp hnames
    obtain ⟨rfl, rfl⟩ := Prod.mk.inj hpair
    exact ⟨ns, hne, lookup_of_mem_nodes hfs hmem (by simp [hne]), rfl, hdepth⟩
  · rintro ⟨ns, hne, hlookup, rfl, hdepth⟩
    refine ⟨(base ++ ns, found), mem_nodes_of_lookup hlookup (by simp [hne]), ?_⟩
    rw [(namesBelow?_eq_some_iff _ ns).mpr ⟨rfl, hne, hdepth⟩]
    rfl

theorem nodup_entriesFrom (hfs : fs.WellFormed) :
    (fs.entriesFrom root base node recursive).Nodup := by
  refine List.nodup_cons.mpr ⟨fun hmem => ?_, ?_⟩
  · obtain ⟨ns, hne, hlookup, hpath, _⟩ := (mem_below_iff hfs root node).mp hmem
    have hsame : (extendPath root ns).same (extendPath root []) = true := by
      rw [← hpath]
      exact Path.same_self root
    exact hne (Path.eq_of_extendPath_same (isName_of_lookup hfs hlookup) (by simp) hsame)
  · have hunique := List.pairwise_map.mp (List.nodup_iff_pairwise_ne.mp hfs.unique)
    rw [List.nodup_iff_pairwise_ne, List.pairwise_filterMap]
    refine hunique.imp_of_mem fun {a b} ha hb hne x hx y hy heq => hne ?_
    obtain ⟨ns, hnames, rfl⟩ := Option.map_eq_some_iff.mp hx
    obtain ⟨ms, hnames', rfl⟩ := Option.map_eq_some_iff.mp hy
    obtain ⟨hlocation, hne, _⟩ := (namesBelow?_eq_some_iff _ ns).mp hnames
    obtain ⟨hlocation', hne', _⟩ := (namesBelow?_eq_some_iff _ ms).mp hnames'
    have hns : ∀ n ∈ ns, IsName n :=
      fun n hn => hfs.named a ha n (hlocation ▸ List.mem_append_right base hn)
    have hms : ∀ m ∈ ms, IsName m :=
      fun m hm => hfs.named b hb m (hlocation' ▸ List.mem_append_right base hm)
    have hpath := congrArg Prod.fst heq
    simp only at hpath
    have hsame : (extendPath root ns).same (extendPath root ms) = true := by
      rw [hpath, Path.same_self]
    rw [hlocation, hlocation', Path.eq_of_extendPath_same hns hms hsame]

theorem visits_entriesFrom (hfs : fs.WellFormed) (hnode : fs.lookup base = some node) :
    fs.Visits root base recursive (fs.entriesFrom root base node recursive) where
  nodup := nodup_entriesFrom hfs
  mem_iff := by
    intro p found
    rw [entriesFrom, List.mem_cons, mem_below_iff hfs, Prod.mk.injEq]
    constructor
    · rintro (⟨rfl, rfl⟩ | ⟨ns, _, hlookup, hpath, hdepth⟩)
      · exact ⟨[], by rwa [List.append_nil], rfl, .inr (by simp)⟩
      · exact ⟨ns, hlookup, hpath, hdepth⟩
    · rintro ⟨ns, hlookup, hpath, hdepth⟩
      by_cases hne : ns = []
      · subst hne
        rw [List.append_nil, hnode, Option.some.injEq] at hlookup
        exact .inl ⟨hpath, hlookup.symm⟩
      · exact .inr ⟨ns, hne, hlookup, hpath, hdepth⟩

theorem filterMap_below_of_file (hfs : fs.WellFormed) {content : ByteArray}
    (h : fs.lookup base = some (.file content)) :
    (fs.nodes.filterMap fun entry =>
      (namesBelow? base recursive entry.1).map fun ns => (extendPath root ns, entry.2)) = [] := by
  rw [List.eq_nil_iff_forall_not_mem]
  rintro ⟨p, found⟩ hmem
  obtain ⟨ns, hne, hlookup, _⟩ := (mem_below_iff hfs p found).mp hmem
  rw [hfs.nested'.lookup_above hlookup hne] at h
  cases h

theorem scannedPath?_eq (entry : Location × Node) :
    scannedPath? root base recursive entry = (namesBelow? base recursive entry.1).bind fun ns =>
      if entry.2.isFile then some (extendPath root ns) else none := by
  obtain ⟨location, found⟩ := entry
  unfold scannedPath? namesBelow?
  cases namesUnder base location with
  | none => cases found <;> rfl
  | some ns =>
    have hdepth : (ns.length = 1 ∨ (recursive = true ∧ ns ≠ [])) ↔
        ns ≠ [] ∧ (recursive = true ∨ ns.length ≤ 1) := by
      cases ns <;> cases recursive <;> simp
    simp only [Option.filter_some, decide_eq_true_eq]
    cases found with
    | directory =>
      symm
      split <;> rfl
    | file content =>
      simp only [hdepth]
      split <;> rfl

theorem filter_filesUnder_eq :
    (fs.filesUnder root base recursive).filter Path.isMesh =
      ((fs.entriesFrom root base .directory recursive).filter fun entry =>
        entry.2.isFile && entry.1.isMesh).map Prod.fst := by
  rw [entriesFrom, List.filter_cons_of_neg (by simp [Node.isFile]), filesUnder_eq,
    List.filter_filterMap, List.filter_filterMap, List.map_filterMap]
  refine List.filterMap_congr fun entry _ => ?_
  rw [scannedPath?_eq]
  cases namesBelow? base recursive entry.1 with
  | none => rfl
  | some ns =>
    cases hfile : entry.2.isFile with
    | false => simp [hfile, Option.filter_some]
    | true =>
      by_cases hmesh : (extendPath root ns).isMesh = true <;>
        simp [hfile, hmesh, Option.filter_some]

theorem scan_eq_collected (hfs : fs.WellFormed) (h : fs.locate root = .ok (base, node)) :
    fs.scan root recursive = .ok (collected (fs.entriesFrom root base node recursive)) := by
  rw [scan, h]
  cases node with
  | directory =>
    simp only
    rw [filter_filesUnder_eq]
    rfl
  | file content =>
    simp only
    rw [collected, entriesFrom, filterMap_below_of_file hfs (lookup_of_locate h)]
    by_cases hmesh : root.isMesh = true
    · simp [Node.isFile, hmesh]
    · simp [Node.isFile, hmesh]

end Entries

/-- A scan gives the files under its root that have the name of a mesh, and no directory, in the
order of paths and so each once, however a walk comes by them. A scan that does not enter
directories gives of these the files that stand one name below the root, or the root itself. -/
theorem scan_exact (hfs : fs.WellFormed) {node : Node} (h : fs.locate root = .ok (base, node)) :
    ∃ found : Bool → List Path,
      (∀ recursive,
        fs.scan root recursive = .ok (found recursive) ∧
        (found recursive).Pairwise Path.Precedes ∧ (found recursive).Nodup ∧
        (∀ p, p ∈ found recursive ↔
          ∃ ns content, fs.lookup (base ++ ns) = some (.file content) ∧ p = extendPath root ns ∧
            (recursive = true ∨ ns.length ≤ 1) ∧ p.HasMeshName) ∧
        (∃ visited, fs.Visits root base recursive visited) ∧
        ∀ visited, fs.Visits root base recursive visited → collected visited = found recursive) ∧
      found false = (found true).filter fun p =>
        p.components.length ≤ root.components.length + 1 := by
  have hvisits : ∀ recursive, fs.Visits root base recursive
      (fs.entriesFrom root base node recursive) :=
    fun recursive => visits_entriesFrom hfs (lookup_of_locate h)
  refine ⟨fun recursive => collected (fs.entriesFrom root base node recursive),
    fun recursive => ?_, ?_⟩
  · have hordered := (hvisits recursive).pairwise_collected hfs
    refine ⟨scan_eq_collected hfs h, hordered, hordered.imp Path.Precedes.ne,
      (hvisits recursive).mem_collected_iff, ⟨_, hvisits recursive⟩,
      fun visited hvisited => hvisited.collected_eq hfs (hvisits recursive)⟩
  · exact (hvisits true).collected_shallow hfs (hvisits false)

/-- A tree with a directory that has the name of a mesh, and with a name that goes on
where another one ends. -/
def unevenTree : FileSystem :=
  ⟨[(["m"], .directory), (["m", "a-b.OBJ"], .file ⟨#[]⟩), (["m", ".obj"], .file ⟨#[]⟩),
    (["m", "a"], .directory), (["m", "a", "b.obj"], .file ⟨#[]⟩), (["m", "x.obj"], .directory),
    (["m", "x.obj", "c.d.obj"], .file ⟨#[]⟩)], []⟩

theorem scan_exact_uneven :
    unevenTree.WellFormed ∧ unevenTree.locate ⟨"m"⟩ = .ok (["m"], .directory) ∧
    ∃ inputs, unevenTree.scan ⟨"m"⟩ true = .ok inputs ∧ inputs.Pairwise Path.Precedes ∧
      ⟨"m/a/b.obj"⟩ ∈ inputs ∧ ⟨"m/a-b.OBJ"⟩ ∈ inputs ∧ ⟨"m/x.obj/c.d.obj"⟩ ∈ inputs := by
  have hfs : unevenTree.WellFormed := ⟨by decide, by decide, by decide⟩
  have hlocate : unevenTree.locate ⟨"m"⟩ = .ok (["m"], .directory) := rfl
  obtain ⟨found, hfound, _⟩ := scan_exact hfs hlocate
  obtain ⟨hscan, hordered, _, hmem, _⟩ := hfound true
  refine ⟨hfs, hlocate, found true, hscan, hordered, (hmem _).mpr ?_, (hmem _).mpr ?_,
    (hmem _).mpr ?_⟩
  · exact ⟨["a", "b.obj"], ⟨#[]⟩, rfl, by decide, .inl rfl, ['b'], ['o', 'b', 'j'], by decide,
      by decide, by decide⟩
  · exact ⟨["a-b.OBJ"], ⟨#[]⟩, rfl, by decide, .inl rfl, ['a', '-', 'b'], ['O', 'B', 'J'],
      by decide, by decide, by decide⟩
  · exact ⟨["x.obj", "c.d.obj"], ⟨#[]⟩, rfl, by decide, .inl rfl, ['c', '.', 'd'], ['o', 'b', 'j'],
      by decide, by decide, by decide⟩

end FileSystem

end CollisionMesh
