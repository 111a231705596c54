import CollisionMesh.Toml.Reader

/-!
# Tables in ascending order

Every table of a document has its keys in ascending order, none twice, at any depth. While
the document is read this holds of the tables under construction, and every change of one
puts a key where it belongs.
-/

namespace CollisionMesh.Toml

set_option autoImplicit false

/-- Keys in ascending order, none twice. -/
def Ascending {α : Type} (entries : List (String × α)) : Prop :=
  entries.Pairwise fun a b => a.1 < b.1

/-- A value all of whose tables are in ascending order. -/
inductive Value.Ordered : Value → Prop
  | text (value : String) : Ordered (.text value)
  | integer (value : Int) : Ordered (.integer value)
  | float (value : Binary64) : Ordered (.float value)
  | overflow : Ordered .overflow
  | boolean (value : Bool) : Ordered (.boolean value)
  | moment (value : Moment) : Ordered (.moment value)
  | array (items : List Value) (each : ∀ item ∈ items, item.Ordered) : Ordered (.array items)
  | table (entries : List (String × Value)) (ascending : Ascending entries)
      (each : ∀ entry ∈ entries, entry.2.Ordered) : Ordered (.table entries)

theorem Value.ordered_table_iff (table : Table) :
    (Value.table table).Ordered ↔ Ascending table ∧ ∀ entry ∈ table, entry.2.Ordered := by
  constructor
  · intro h
    cases h with
    | table _ ascending each => exact ⟨ascending, each⟩
  · exact fun h => .table table h.1 h.2

/-- The same of what is under construction. -/
inductive Draft.Ordered : Draft → Prop
  | closed (value : Value) (ordered : value.Ordered) : Ordered (.closed value)
  | table (origin : TableOrigin) (entries : List (String × Draft)) (ascending : Ascending entries)
      (each : ∀ entry ∈ entries, entry.2.Ordered) : Ordered (.table origin entries)
  | tables (items : List (List (String × Draft))) (ascending : ∀ entries ∈ items, Ascending entries)
      (each : ∀ entries ∈ items, ∀ entry ∈ entries, entry.2.Ordered) : Ordered (.tables items)

/-- A table under construction that is in ascending order, as everything in it is. -/
def Entries.Ordered (entries : Entries) : Prop :=
  Ascending entries ∧ ∀ entry ∈ entries, entry.2.Ordered

theorem Entries.ordered_nil : Entries.Ordered [] := ⟨.nil, by simp⟩

section Finish

theorem finishEntries_eq (entries : Entries) :
    finishEntries entries = entries.map fun entry => (entry.1, entry.2.finish) := by
  induction entries with
  | nil => rfl
  | cons entry entries ih => rw [finishEntries, ih, List.map_cons]

theorem finishTables_eq (items : List Entries) :
    finishTables items = items.map fun entries => Value.table (finishEntries entries) := by
  induction items with
  | nil => rfl
  | cons entries items ih => rw [finishTables, ih, List.map_cons]

theorem ordered_table_finishEntries {entries : Entries} (hascending : Ascending entries)
    (heach : ∀ entry ∈ entries, entry.2.finish.Ordered) :
    (Value.table (finishEntries entries)).Ordered := by
  rw [finishEntries_eq]
  refine .table _ (List.pairwise_map.mpr hascending) fun entry hentry => ?_
  obtain ⟨draft, hdraft, rfl⟩ := List.mem_map.mp hentry
  exact heach draft hdraft

theorem Draft.Ordered.finish {draft : Draft} (h : draft.Ordered) : draft.finish.Ordered := by
  induction h with
  | closed value ordered => exact ordered
  | table origin entries hascending _ ih => exact ordered_table_finishEntries hascending ih
  | tables items hascending _ ih =>
    rw [Draft.finish, finishTables_eq]
    refine .array _ fun item hitem => ?_
    obtain ⟨entries, hentries, rfl⟩ := List.mem_map.mp (List.mem_reverse.mp hitem)
    exact ordered_table_finishEntries (hascending entries hentries) (ih entries hentries)

theorem Entries.Ordered.finish {entries : Entries} (h : entries.Ordered) :
    (Value.table (finishEntries entries)).Ordered :=
  ordered_table_finishEntries h.1 fun entry hentry => (h.2 entry hentry).finish

end Finish

namespace Entries

section Alter

variable {key : String} {change : Option Draft → Option Draft} {entries altered : Entries}

/-- Altering a table changes what stands at one key, before greater keys and after smaller ones. -/
theorem exists_of_alter (hascending : Ascending entries)
    (h : alter key change entries = some altered) :
    ∃ before after old new, change old = some new ∧
      entries = before ++ (old.map fun draft => (key, draft)).toList ++ after ∧
      altered = before ++ (key, new) :: after ∧
      (∀ entry ∈ before, entry.1 < key) ∧ ∀ entry ∈ after, key < entry.1 := by
  induction entries generalizing altered with
  | nil =>
    obtain ⟨new, hnew, rfl⟩ := Option.map_eq_some_iff.mp h
    exact ⟨[], [], none, new, hnew, rfl, rfl, by simp, by simp⟩
  | cons first rest ih =>
    obtain ⟨hfirst, hrest⟩ := List.pairwise_cons.mp hascending
    unfold alter at h
    split at h
    · rename_i heq
      obtain ⟨new, hnew, rfl⟩ := Option.map_eq_some_iff.mp h
      subst heq
      exact ⟨[], rest, some first.2, new, hnew, rfl, rfl, by simp, hfirst⟩
    · rename_i hne
      split at h
      · rename_i hlt
        obtain ⟨new, hnew, rfl⟩ := Option.map_eq_some_iff.mp h
        refine ⟨[], first :: rest, none, new, hnew, rfl, rfl, by simp, ?_⟩
        exact List.forall_mem_cons.mpr
          ⟨hlt, fun entry hentry => String.lt_trans hlt (hfirst entry hentry)⟩
      · rename_i hge
        obtain ⟨later, hlater, rfl⟩ := Option.map_eq_some_iff.mp h
        obtain ⟨before, after, old, new, hnew, rfl, rfl, hbefore, hafter⟩ := ih hrest hlater
        have hlt : first.1 < key := Std.lt_of_le_of_ne (String.not_lt.mp hge) (Ne.symm hne)
        exact ⟨first :: before, after, old, new, hnew, rfl, rfl,
          List.forall_mem_cons.mpr ⟨hlt, hbefore⟩, hafter⟩

theorem Ordered.alter (hentries : entries.Ordered)
    (hchange : ∀ old new, (∀ draft ∈ old, draft.Ordered) → change old = some new → new.Ordered)
    (h : alter key change entries = some altered) : altered.Ordered := by
  obtain ⟨before, after, old, new, hnew, rfl, rfl, hbefore, hafter⟩ := exists_of_alter hentries.1 h
  obtain ⟨hascending, heach⟩ := hentries
  have hold : ∀ draft ∈ old, draft.Ordered := fun draft hdraft => heach (key, draft) (by simp_all)
  constructor
  · have hparts := List.pairwise_append.mp hascending
    refine List.pairwise_append.mpr ⟨(List.pairwise_append.mp hparts.1).1,
      List.pairwise_cons.mpr ⟨hafter, hparts.2.1⟩, fun a ha b hb => ?_⟩
    rcases List.mem_cons.mp hb with rfl | hb
    · exact hbefore a ha
    · exact hparts.2.2 a (List.mem_append_left _ ha) b hb
  · intro entry hentry
    rcases List.mem_append.mp hentry with hentry | hentry
    · exact heach entry (by simp [hentry])
    · rcases List.mem_cons.mp hentry with rfl | hentry
      · exact hchange old new hold hnew
      · exact heach entry (by simp [hentry])

end Alter

theorem ordered_table_iff {origin : TableOrigin} {entries : Entries} :
    (Draft.table origin entries).Ordered ↔ entries.Ordered := by
  constructor
  · rintro (_ | ⟨_, _, hascending, heach⟩ | _)
    exact ⟨hascending, heach⟩
  · rintro ⟨hascending, heach⟩
    exact .table origin entries hascending heach

theorem ordered_tables_iff {items : List Entries} :
    (Draft.tables items).Ordered ↔ ∀ entries ∈ items, entries.Ordered := by
  constructor
  · rintro (_ | _ | ⟨_, hascending, heach⟩) entries hentries
    exact ⟨hascending entries hentries, heach entries hentries⟩
  · intro h
    exact .tables items (fun entries hentries => (h entries hentries).1)
      fun entries hentries => (h entries hentries).2

def KeepsOrder (change : Entries → Option Entries) : Prop :=
  ∀ entries altered, Entries.Ordered entries → change entries = some altered →
    Entries.Ordered altered

section Changes

variable {change : Entries → Option Entries} {entries : Entries} {new : Draft}

theorem ordered_map_table (h : KeepsOrder change) (hentries : entries.Ordered)
    {origin : TableOrigin} (hnew : (change entries).map (Draft.table origin) = some new) :
    new.Ordered := by
  obtain ⟨altered, haltered, rfl⟩ := Option.map_eq_some_iff.mp hnew
  exact ordered_table_iff.mpr (h entries altered hentries haltered)

theorem ordered_map_tables (h : KeepsOrder change) {done : List Entries}
    (hitems : (Draft.tables (entries :: done)).Ordered)
    (hnew : (change entries).map (fun last => Draft.tables (last :: done)) = some new) :
    new.Ordered := by
  obtain ⟨hentries, hdone⟩ := List.forall_mem_cons.mp (ordered_tables_iff.mp hitems)
  obtain ⟨altered, haltered, rfl⟩ := Option.map_eq_some_iff.mp hnew
  exact ordered_tables_iff.mpr
    (List.forall_mem_cons.mpr ⟨h entries altered hentries haltered, hdone⟩)

theorem keepsOrder_within (h : KeepsOrder change) (path : List String) :
    KeepsOrder (within change path) := by
  induction path with
  | nil => exact h
  | cons key path ih =>
    intro entries altered hentries haltered
    refine hentries.alter (fun old new hold hnew => ?_) haltered
    split at hnew
    · exact ordered_map_table ih ordered_nil hnew
    · exact ordered_map_table ih (ordered_table_iff.mp (hold _ rfl)) hnew
    · exact ordered_map_tables ih (hold _ rfl) hnew
    · cases hnew

end Changes

theorem keepsOrder_openTable (parents : List String) (key : String) :
    KeepsOrder (openTable parents key) := by
  refine keepsOrder_within (fun entries altered hentries haltered => ?_) parents
  refine hentries.alter (fun old new hold hnew => ?_) haltered
  split at hnew
  · cases hnew
    exact ordered_table_iff.mpr ordered_nil
  · cases hnew
    exact ordered_table_iff.mpr (ordered_table_iff.mp (hold _ rfl))
  · cases hnew

theorem keepsOrder_openNextTable (parents : List String) (key : String) :
    KeepsOrder (openNextTable parents key) := by
  refine keepsOrder_within (fun entries altered hentries haltered => ?_) parents
  refine hentries.alter (fun old new hold hnew => ?_) haltered
  split at hnew
  · cases hnew
    exact ordered_tables_iff.mpr (by simp [ordered_nil])
  · cases hnew
    have hitems := ordered_tables_iff.mp (hold _ rfl)
    exact ordered_tables_iff.mpr (List.forall_mem_cons.mpr ⟨ordered_nil, hitems⟩)
  · cases hnew

theorem keepsOrder_assign {value : Value} (h : value.Ordered) (key : String)
    (parents : List String) :
    KeepsOrder (assign value key parents) := by
  induction parents with
  | nil =>
    intro entries altered hentries haltered
    refine hentries.alter (fun old new hold hnew => ?_) haltered
    split at hnew
    · cases hnew
      exact .closed value h
    · cases hnew
  | cons parent parents ih =>
    intro entries altered hentries haltered
    refine hentries.alter (fun old new hold hnew => ?_) haltered
    split at hnew
    · exact ordered_map_table ih ordered_nil hnew
    · exact ordered_map_table ih (ordered_table_iff.mp (hold _ rfl)) hnew
    · split at hnew
      · cases hnew
      · exact ordered_map_table ih (ordered_table_iff.mp (hold _ rfl)) hnew
    · split at hnew
      · cases hnew
      · exact ordered_map_tables ih (hold _ rfl) hnew
    · cases hnew

end Entries

namespace Scan

variable {α β : Type}

/-- What is said of whatever a reader takes off. -/
def Ensures (scan : Scan α) (P : α → Prop) : Prop :=
  ∀ cs read, scan cs = some read → P read.1

theorem ensures_pure {P : α → Prop} {a : α} (h : P a) : (pure a : Scan α).Ensures P := by
  rintro cs read ⟨⟩
  exact h

theorem ensures_failure {P : α → Prop} : (failure : Scan α).Ensures P := by
  rintro cs read ⟨⟩

theorem Ensures.bind {Q : α → Prop} {P : β → Prop} {scan : Scan α} {next : α → Scan β}
    (h : scan.Ensures Q) (hnext : ∀ a, Q a → (next a).Ensures P) : (scan >>= next).Ensures P := by
  intro cs read hread
  obtain ⟨mid, hmid, hread⟩ := Option.bind_eq_some_iff.mp hread
  exact hnext mid.1 (h cs mid hmid) mid.2 read hread

theorem ensures_bind {P : β → Prop} {scan : Scan α} {next : α → Scan β}
    (hnext : ∀ a, (next a).Ensures P) : (scan >>= next).Ensures P := by
  have hany : scan.Ensures fun _ => True := fun _ _ _ => trivial
  exact hany.bind fun a _ => hnext a

theorem ensures_map_read {P : α → Prop} {γ : Type} {read? : List Char → Option γ}
    {f : γ → α × List Char} (h : ∀ x, P (f x).1) : Ensures (fun cs => (read? cs).map f) P := by
  intro cs read hread
  obtain ⟨x, _, rfl⟩ := Option.map_eq_some_iff.mp hread
  exact h x

end Scan

theorem ordered_of_readFloat? {cs : List Char} {value : Value} (h : readFloat? cs = some value) :
    value.Ordered := by
  unfold readFloat? at h
  simp only at h
  split at h
  · cases h
    exact .float _
  · split at h
    · cases h
      exact .float _
    · obtain ⟨decimal, _, rfl⟩ := Option.map_eq_some_iff.mp h
      split
      · exact .float _
      · exact .overflow

theorem ordered_of_readScalar? {cs : List Char} {value : Value} (h : readScalar? cs = some value) :
    value.Ordered := by
  unfold readScalar? at h
  split at h
  · cases h
    exact .boolean true
  · split at h
    · cases h
      exact .boolean false
    · split at h
      · cases h
        split
        · exact .integer _
        · exact .overflow
      · rcases Option.or_eq_some_iff.mp h with h | ⟨_, h⟩
        · exact ordered_of_readFloat? h
        · obtain ⟨moment, _, rfl⟩ := Option.map_eq_some_iff.mp h
          exact .moment moment

namespace Scan

theorem ensures_scalar : scalar.Ensures Value.Ordered := by
  intro cs read hread
  obtain ⟨value, hvalue, rfl⟩ := Option.map_eq_some_iff.mp hread
  exact ordered_of_readScalar? hvalue

/-- Values, items and pairs, for each depth of nesting: what is read is in order. -/
theorem ensures_value (fuel depth : Nat) :
    (value fuel depth).Ensures Value.Ordered ∧
      (items fuel depth).Ensures (fun read => ∀ item ∈ read, item.Ordered) ∧
      ∀ entries : Entries, entries.Ordered →
        (pairs fuel depth entries).Ensures Entries.Ordered := by
  -- the three readers call each other with less fuel, so they go together
  induction fuel generalizing depth with
  | zero => exact ⟨ensures_failure, ensures_failure, fun _ _ => ensures_failure⟩
  | succ fuel ih =>
    refine ⟨?value, ?items, fun entries hentries => ?pairs⟩
    case value =>
      unfold value
      refine ensures_bind fun next => ?_
      split
      · exact ensures_failure
      · split
        · exact ensures_failure
        · rename_i depth
          refine ensures_bind fun _ => (ih depth).2.1.bind fun read hread => ?_
          exact ensures_pure (.array read hread)
      · split
        · exact ensures_failure
        · rename_i depth
          refine ensures_bind fun _ =>
            ((ih depth).2.2 [] Entries.ordered_nil).bind fun read hread => ?_
          exact ensures_pure hread.finish
      · exact ensures_map_read fun read => .text read.1
      · exact ensures_map_read fun read => .text read.1
      · exact ensures_scalar
    case items =>
      unfold items
      refine ensures_bind fun _ => ensures_bind fun closed => ?_
      split
      · exact ensures_pure (by simp)
      · refine (ih depth).1.bind fun first hfirst => ensures_bind fun _ =>
          ensures_bind fun more => ?_
        split
        · refine (ih depth).2.1.bind fun rest hrest => ensures_pure ?_
          exact List.forall_mem_cons.mpr ⟨hfirst, hrest⟩
        · refine ensures_bind fun _ => ensures_pure ?_
          exact List.forall_mem_cons.mpr ⟨hfirst, by simp⟩
    case pairs =>
      unfold pairs
      refine ensures_bind fun _ => ensures_bind fun closed => ?_
      split
      · exact ensures_pure hentries
      · refine ensures_bind fun key => ensures_bind fun _ => ensures_bind fun _ =>
          ensures_bind fun _ => ?_
        refine (ih depth).1.bind fun value hvalue => ?_
        split
        · exact ensures_failure
        · rename_i assigned hassigned
          have hordered := Entries.keepsOrder_assign hvalue _ _ entries assigned hentries hassigned
          refine ensures_bind fun _ => ensures_bind fun more => ?_
          split
          · exact (ih depth).2.2 assigned hordered
          · exact ensures_bind fun _ => ensures_pure hordered

theorem ensures_header {document : Document} (h : document.entries.Ordered) :
    (header document).Ensures fun read => read.entries.Ordered := by
  unfold header
  refine ensures_bind fun _ => ensures_bind fun isArray => ensures_bind fun key =>
    ensures_bind fun _ => ensures_bind fun _ => ?_
  cases isArray with
  | true =>
    simp only [if_true]
    refine ensures_bind fun _ => ?_
    split
    · exact ensures_failure
    · rename_i entries hentries
      exact ensures_pure (Entries.keepsOrder_openNextTable _ _ _ _ h hentries)
  | false =>
    simp only [Bool.false_eq_true, if_false]
    split
    · exact ensures_failure
    · rename_i entries hentries
      exact ensures_pure (Entries.keepsOrder_openTable _ _ _ _ h hentries)

theorem ensures_assignment {document : Document} (h : document.entries.Ordered) :
    (assignment document).Ensures fun read => read.entries.Ordered := by
  unfold assignment
  refine ensures_bind fun key => ensures_bind fun _ => ensures_bind fun _ => ensures_bind fun _ =>
    ensures_bind fun rest => (ensures_value _ _).1.bind fun value hvalue => ?_
  split
  · exact ensures_failure
  · rename_i entries hentries
    have hkeeps := Entries.keepsOrder_assign hvalue key.2 key.1
    exact ensures_pure (Entries.keepsOrder_within hkeeps _ _ _ h hentries)

theorem ensures_statements (fuel : Nat) {document : Document} (h : document.entries.Ordered) :
    (statements fuel document).Ensures fun read => read.entries.Ordered := by
  induction fuel generalizing document with
  | zero => exact ensures_failure
  | succ fuel ih =>
    unfold statements
    refine ensures_bind fun _ => ensures_bind fun next => ?_
    split
    · exact ensures_pure h
    · rename_i c
      split
      · exact (ensures_header h).bind fun read hread => ensures_bind fun _ => ih hread
      · exact (ensures_assignment h).bind fun read hread => ensures_bind fun _ => ih hread

end Scan

/-- The tables of a document are in ascending order, at every depth. -/
theorem ordered_of_ofText? {text : String} {table : Table} (h : ofText? text = some table) :
    (Value.table table).Ordered := by
  obtain ⟨read, hread, rfl⟩ := Option.map_eq_some_iff.mp h
  exact (Scan.ensures_statements _ Entries.ordered_nil _ read hread).finish

end CollisionMesh.Toml
