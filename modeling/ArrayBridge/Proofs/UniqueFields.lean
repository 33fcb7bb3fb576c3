import ArrayBridge.Proofs.QueryResult
import ArrayBridge.Render.Json
import Mathlib.Data.List.Perm.Subperm

/-!
Columns under their names. Names that are distinct lead to their own columns, in the records of a result and in the
objects that are made of them; if two names are the same, one column is found under neither.
-/
namespace ArrayBridge

namespace RecordArray

variable {α : Type} {r : RecordArray α} {name : String} {i j : Nat}

theorem fieldIndex?_eq_some_iff :
    r.fieldIndex? name = some j ↔ r.fields[j]? = some name ∧ ∀ i < j, r.fields[i]? ≠ some name := by
  rw [fieldIndex?, List.findIdx?_eq_some_iff_getElem]
  constructor
  · rintro ⟨hj, hname, hfirst⟩
    refine ⟨List.getElem?_eq_some_iff.mpr ⟨hj, of_decide_eq_true hname⟩, fun i hi hsame => ?_⟩
    obtain ⟨_, hget⟩ := List.getElem?_eq_some_iff.mp hsame
    exact hfirst i hi (decide_eq_true hget)
  · rintro ⟨hname, hfirst⟩
    obtain ⟨hj, hget⟩ := List.getElem?_eq_some_iff.mp hname
    refine ⟨hj, decide_eq_true hget, fun i hi hsame => ?_⟩
    exact hfirst i hi (List.getElem?_eq_some_iff.mpr ⟨hi.trans hj, of_decide_eq_true hsame⟩)

/-- Distinct names are those that all lead to their own places. -/
theorem nodup_iff_fieldIndex? :
    r.fields.Nodup ↔ ∀ j name, r.fields[j]? = some name → r.fieldIndex? name = some j := by
  rw [List.nodup_iff_getElem?_ne_getElem?]
  constructor
  · intro hdistinct j name hname
    refine fieldIndex?_eq_some_iff.mpr ⟨hname, fun i hi hsame => ?_⟩
    obtain ⟨hj, -⟩ := List.getElem?_eq_some_iff.mp hname
    exact hdistinct i j hi hj (hsame.trans hname.symm)
  · intro hindex i j hi hj hsame
    have hname := List.getElem?_eq_getElem hj
    have hboth := (hindex i _ (hsame.trans hname)).symm.trans (hindex j _ hname)
    exact Nat.ne_of_lt hi (Option.some.inj hboth)

theorem get?_of_fieldIndex? {record : List α} (hrecord : r.records[i]? = some record)
    (hindex : r.fieldIndex? name = some j) : r.get? i name = record[j]? := by
  rw [get?, hindex, hrecord]
  rfl

theorem map_some_filterMap {β : Type} {f : α → Option β} {xs : List α} (h : ∀ x ∈ xs, (f x).isSome = true) :
    (xs.filterMap f).map some = xs.map f := by
  induction xs with
  | nil => rfl
  | cons x xs ih =>
      obtain ⟨y, hy⟩ := Option.isSome_iff_exists.mp (h x List.mem_cons_self)
      rw [List.filterMap_cons_some hy, List.map_cons, List.map_cons, hy,
        ih fun z hz => h z (List.mem_cons_of_mem x hz)]

/-- A column has one item for every record, where all records are wide enough. -/
theorem column?_of_fieldIndex? (hwidth : ∀ record ∈ r.records, j < record.length)
    (hindex : r.fieldIndex? name = some j) :
    ∃ items, r.column? name = some items ∧ items.map some = r.records.map (·[j]?) := by
  refine ⟨r.records.filterMap (·[j]?), ?_, map_some_filterMap fun record hrecord => ?_⟩
  · rw [column?, hindex]
    rfl
  · rw [List.getElem?_eq_getElem (hwidth record hrecord)]
    rfl

end RecordArray

namespace Json

variable {α : Type} {name : String} {value : α} {ms pairs : List (String × α)}

theorem insert_of_notMem (h : name ∉ ms.map Prod.fst) : insert name value ms = ms ++ [(name, value)] := by
  induction ms with
  | nil => rfl
  | cons m ms ih =>
      have hne : m.1 ≠ name := fun he => h (he ▸ List.mem_cons_self)
      rw [insert, if_neg hne, ih (List.not_mem_of_not_mem_cons h)]
      rfl

theorem map_fst_insert :
    (insert name value ms).map Prod.fst =
      if name ∈ ms.map Prod.fst then ms.map Prod.fst else ms.map Prod.fst ++ [name] := by
  split
  · rename_i hmem
    induction ms with
    | nil => cases hmem
    | cons m ms ih =>
        rw [insert]
        split
        · rfl
        · rename_i hne
          have hrest := (List.mem_cons.mp hmem).resolve_left (Ne.symm hne)
          rw [List.map_cons, List.map_cons, ih hrest]
  · rename_i hmem
    rw [insert_of_notMem hmem, List.map_append]
    rfl

theorem foldl_insert_of_nodup (ms pairs : List (String × α)) (h : ((ms ++ pairs).map Prod.fst).Nodup) :
    pairs.foldl (fun ms p => insert p.1 p.2 ms) ms = ms ++ pairs := by
  induction pairs generalizing ms with
  | nil => exact (List.append_nil ms).symm
  | cons p pairs ih =>
      have hsnoc : ms ++ p :: pairs = ms ++ [p] ++ pairs := by simp
      have hnew : p.1 ∉ ms.map Prod.fst := by
        rw [List.map_append, List.map_cons] at h
        exact fun hmem => (List.nodup_append.mp h).2.2 _ hmem _ List.mem_cons_self rfl
      rw [List.foldl_cons, insert_of_notMem hnew, ih _ (hsnoc ▸ h), hsnoc]

theorem members_of_nodup (h : (pairs.map Prod.fst).Nodup) : members pairs = pairs := foldl_insert_of_nodup [] pairs h

theorem nodup_names_insert (h : (ms.map Prod.fst).Nodup) : ((insert name value ms).map Prod.fst).Nodup := by
  rw [map_fst_insert]
  split
  · exact h
  · exact FieldName.nodup_snoc_iff.mpr ⟨‹_›, h⟩

theorem names_insert_subset : (insert name value ms).map Prod.fst ⊆ ms.map Prod.fst ++ [name] := by
  rw [map_fst_insert]
  split
  · exact List.subset_append_left _ _
  · exact List.Subset.refl _

theorem names_foldl_insert (ms pairs : List (String × α)) (h : (ms.map Prod.fst).Nodup) :
    ((pairs.foldl (fun ms p => insert p.1 p.2 ms) ms).map Prod.fst).Nodup ∧
      (pairs.foldl (fun ms p => insert p.1 p.2 ms) ms).map Prod.fst ⊆ ms.map Prod.fst ++ pairs.map Prod.fst := by
  induction pairs generalizing ms with
  | nil => exact ⟨h, List.subset_append_left _ _⟩
  | cons p pairs ih =>
      obtain ⟨hnodup, hsub⟩ := ih (insert p.1 p.2 ms) (nodup_names_insert h)
      refine ⟨hnodup, List.Subset.trans hsub (List.append_subset.mpr ⟨List.Subset.trans names_insert_subset ?_, ?_⟩)⟩
      · simp
      · simp

theorem length_members_lt (h : ¬(pairs.map Prod.fst).Nodup) : (members pairs).length < pairs.length := by
  obtain ⟨hnodup, hsub⟩ := names_foldl_insert [] pairs List.nodup_nil
  by_contra hle
  have hperm := (hnodup.subperm hsub).perm_of_length_le (by simpa [members] using hle)
  exact h (hperm.nodup_iff.mp hnodup)

end Json

namespace QueryResult

open Render (json recordJson valueJson)

variable {config : Config} {s : Stepping} {r : QueryResult} {table : RecordArray HostValue}

theorem recordJson_of_nodup {fields : List String} {values : List HostValue} (hwidth : values.length = fields.length)
    (h : fields.Nodup) (charset : Charset) :
    recordJson charset fields values = .object (fields.zip (values.map (valueJson charset))) := by
  have hnames : (fields.zip (values.map (valueJson charset))).map Prod.fst = fields :=
    List.map_fst_zip (by rw [List.length_map, hwidth])
  exact congrArg Json.object (Json.members_of_nodup (hnames.symm ▸ h))

/-- Every column is found under its name, and every object has it as a member of that name. -/
structure AllFound (table : RecordArray HostValue) : Prop where
  index : ∀ (j : Nat) (f : String), table.fields[j]? = some f → table.fieldIndex? f = some j
  value : ∀ (i j : Nat) (record : List HostValue) (f : String), table.records[i]? = some record →
    table.fields[j]? = some f → table.get? i f = record[j]?
  column : ∀ (j : Nat) (f : String), table.fields[j]? = some f →
    ∃ items, table.column? f = some items ∧ items.map some = table.records.map (·[j]?)
  object : ∀ charset, json charset (.records table) =
    .array (table.records.map fun record => .object (table.fields.zip (record.map (valueJson charset))))

/-- Some column is not found under its name, and every object has fewer members than there are columns. -/
structure SomeLost (table : RecordArray HostValue) : Prop where
  index : ∃ j f, table.fields[j]? = some f ∧ table.fieldIndex? f ≠ some j
  object : ∀ charset, ∃ objects : List (List (String × Json)),
    json charset (.records table) = .array (objects.map .object) ∧ objects.length = table.records.length ∧
      ∀ members ∈ objects, members.length < table.fields.length

theorem allFound_of_nodup (hwidth : ∀ record ∈ table.records, record.length = table.fields.length)
    (h : table.fields.Nodup) : AllFound table := by
  have hindex := RecordArray.nodup_iff_fieldIndex?.mp h
  refine ⟨hindex, fun i j record f hrecord hf => ?_, fun j f hf => ?_, fun charset => ?_⟩
  · exact RecordArray.get?_of_fieldIndex? hrecord (hindex j f hf)
  · obtain ⟨hj, -⟩ := List.getElem?_eq_some_iff.mp hf
    exact RecordArray.column?_of_fieldIndex? (fun record hrecord => by rwa [hwidth record hrecord]) (hindex j f hf)
  · refine congrArg Json.array (List.map_congr_left fun record hrecord => ?_)
    exact recordJson_of_nodup (hwidth record hrecord) h charset

theorem someLost_of_not_nodup (hwidth : ∀ record ∈ table.records, record.length = table.fields.length)
    (h : ¬table.fields.Nodup) : SomeLost table := by
  constructor
  · by_contra hnone
    refine h (RecordArray.nodup_iff_fieldIndex?.mpr fun j f hf => ?_)
    by_contra hindex
    exact hnone ⟨j, f, hf, hindex⟩
  · intro charset
    refine ⟨table.records.map fun record => Json.members (table.fields.zip (record.map (valueJson charset))),
      congrArg Json.array ?_, List.length_map _, fun members hmembers => ?_⟩
    · rw [List.map_map]
      rfl
    · obtain ⟨record, hrecord, rfl⟩ := List.mem_map.mp hmembers
      have hlen : table.fields.length ≤ (record.map (valueJson charset)).length := by
        rw [List.length_map, hwidth record hrecord]
      have hpairs : (table.fields.zip (record.map (valueJson charset))).length = table.fields.length := by
        rw [List.length_zip, Nat.min_eq_left hlen]
      rw [← hpairs]
      exact Json.length_members_lt (by rwa [List.map_fst_zip hlen])

theorem duplicate_notMem_cellWarnings (name : String) (c : Cell) :
    .duplicateFieldName name ∉ cellWarnings config c := by
  cases c with
  | blob b =>
      rw [cellWarnings]
      split
      · rw [NumericArray.originWarnings]
        split
        · split <;> simp
        · simp
      · simp
  | null | integer _ | float _ | text _ => exact List.not_mem_nil

/-- With names made unique, a name has a warning exactly if two names are the same in the end. -/
theorem exists_duplicate_iff {columns fields : List String} {noted : List Warning} (rows : List (List Cell))
    (hcheck : config.checkUniqueFields = true) (h : Headed config columns fields noted) :
    (∃ name, .duplicateFieldName name ∈ noted ++ rows.flatten.flatMap (cellWarnings config)) ↔ ¬fields.Nodup := by
  cases h with
  | plain hoff =>
      rw [hoff] at hcheck
      cases hcheck
  | unique hon hresolve =>
      have hdistinct := FieldName.nodup_resolveAfter_iff [] (columns.map FieldName.sanitize)
      rw [← FieldName.resolve, hresolve] at hdistinct
      rw [hdistinct, not_and_or, or_iff_right (not_not_intro List.nodup_nil)]
      constructor
      · rintro ⟨name, hname⟩ rfl
        obtain ⟨c, -, hc⟩ := List.mem_flatMap.mp (List.mem_append.mp hname |>.resolve_left List.not_mem_nil)
        exact duplicate_notMem_cellWarnings name c hc
      · intro hnoted
        obtain ⟨w, hw⟩ := List.exists_mem_of_ne_nil noted hnoted
        have hresolved : w ∈ (FieldName.resolve (columns.map FieldName.sanitize)).2 := by rwa [hresolve]
        obtain ⟨name, rfl⟩ := FieldName.duplicate_of_mem_resolveAfter hresolved
        exact ⟨name, List.mem_append_left _ hw⟩

theorem Headed.plain_names {columns fields : List String} {noted : List Warning}
    (h : Headed config columns fields noted) : ∀ f ∈ fields, ∀ c ∈ f.toList, FieldName.Plain c := by
  have hsanitized : ∀ f ∈ columns.map FieldName.sanitize, ∀ c ∈ f.toList, FieldName.Plain c := by
    intro f hf
    obtain ⟨name, -, rfl⟩ := List.mem_map.mp hf
    exact FieldName.plain_sanitize name
  cases h with
  | plain hoff => exact hsanitized
  | unique hon hresolve =>
      have hplain := FieldName.plain_resolveAfter (fun f hf => absurd hf List.not_mem_nil) hsanitized
      rwa [← FieldName.resolve, hresolve] at hplain

/-- Rows of a statement whose names were made unique: if no name has a warning, every column is found under its
name, else some column is not. Without columns there are no records to find one in. -/
theorem found_iff_no_duplicate (s : Stepping) (config : Config) (r : QueryResult)
    (hcheck : config.checkUniqueFields = true) (hrows : s.rows ≠ []) (h : ofStepping s config = .ok r) :
    (s.columns = [] ∧ r = empty) ∨
      ∃ table, r.output = .records table ∧ table.fields.length = s.columns.length ∧
        table.records.length = s.rows.length ∧ (∀ record ∈ table.records, record.length = s.columns.length) ∧
        (∀ f ∈ table.fields, ∀ c ∈ f.toList, FieldName.Plain c) ∧
        ((∀ name, .duplicateFieldName name ∉ r.warnings) → AllFound table) ∧
        ((∃ name, .duplicateFieldName name ∈ r.warnings) → SomeLost table) := by
  by_cases hcolumns : s.columns = []
  · exact .inl ⟨hcolumns, empty_of_ofStepping hcolumns h⟩
  obtain ⟨fields, noted, values, hheaded, hlength, hrecords, rfl⟩ := records_of_ofStepping hcolumns hrows h
  have hfields : fields.length = s.columns.length := by rw [← length_fieldNames s.columns config, hheaded.fieldNames_eq]
  have hwidth : ∀ record ∈ values, record.length = fields.length := by rwa [hfields]
  have hduplicate := exists_duplicate_iff s.rows hcheck hheaded
  refine .inr ⟨⟨fields, values⟩, rfl, hfields, hlength, hrecords, hheaded.plain_names, fun hnone => ?_, fun hsome => ?_⟩
  · refine allFound_of_nodup hwidth ?_
    by_contra hdup
    obtain ⟨name, hname⟩ := hduplicate.mpr hdup
    exact hnone name hname
  · exact someLost_of_not_nodup hwidth (hduplicate.mp hsome)

/-- Two columns whose names are the same as fields. -/
theorem found_iff_no_duplicate_sanitized :
    ∃ table : RecordArray HostValue,
      ofStepping ⟨["a b", "a-b"], [[.integer 1, .text [104]]], none⟩ {} = .ok ⟨.records table, []⟩ ∧
        table.fieldIndex? "a_b_1" = some 1 ∧ table.get? 0 "a_b_1" = some (.text [104]) ∧
        json .convert (.records table) =
          .array [.object [("a_b", valueJson .convert (.double (.ofInt 1))), ("a_b_1", .string "h")]] := by
  let s : Stepping := ⟨["a b", "a-b"], [[.integer 1, .text [104]]], none⟩
  have hheaded : Headed {} s.columns ["a_b", "a_b_1"] [] := .unique rfl (by decide)
  have hrecords : Transcribed {} s _ := .records rfl nofun nofun hheaded (.cons (.cons rfl (.cons rfl .nil)) .nil)
  have h := hrecords.ofStepping_eq (by decide)
  obtain ⟨hnone, -⟩ | ⟨table, htable, -, -, -, -, hfound, -⟩ := found_iff_no_duplicate s {} _ rfl nofun h
  · cases hnone
  cases htable
  have hall := hfound fun name => List.not_mem_nil
  exact ⟨_, h, hall.index 1 "a_b_1" rfl, hall.value 0 1 _ "a_b_1" rfl rfl, hall.object .convert⟩

end QueryResult

end ArrayBridge
