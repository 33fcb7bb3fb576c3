import ArrayBridge.Proofs.FieldName
import ArrayBridge.Proofs.StoredArray
import ArrayBridge.Proofs.Traversal
import ArrayBridge.QueryResult

/-!
The result of a statement is its rows cell by cell. Errors of the engine come before those of single cells, and
of these the first in the order of rows and columns is the result.
-/
namespace ArrayBridge

namespace RowBuffer

variable {b : RowBuffer}

theorem push_eq_ok {row : List Cell} (h : row.length = b.columns) :
    b.push row = .ok { b with rows := b.rows ++ [row] } := if_neg (not_not_intro h)

theorem foldlM_push_eq_ok (f : List Cell → List Cell) {rows : List (List Cell)}
    (h : ∀ row ∈ rows, (f row).length = b.columns) :
    rows.foldlM (fun b row => b.push (f row)) b = .ok { b with rows := b.rows ++ rows.map f } := by
  induction rows generalizing b with
  | nil => simp [pure, Except.pure]
  | cons row rows ih =>
      have hrow := push_eq_ok (h row List.mem_cons_self)
      have hrest := ih (b := { b with rows := b.rows ++ [f row] }) fun r hr => h r (List.mem_cons_of_mem row hr)
      rw [List.append_assoc] at hrest
      rw [List.foldlM_cons, hrow]
      exact hrest

theorem push_eq_ok_inv {b' : RowBuffer} {row : List Cell} (h : b.push row = .ok b') :
    row.length = b.columns ∧ b'.columns = b.columns := by
  rw [push] at h
  split at h
  · cases h
  · rename_i hlen
    cases h
    exact ⟨not_not.mp hlen, rfl⟩

theorem length_of_foldlM_push (f : List Cell → List Cell) {b' : RowBuffer} {rows : List (List Cell)}
    (h : rows.foldlM (fun b row => b.push (f row)) b = .ok b') : ∀ row ∈ rows, (f row).length = b.columns := by
  induction rows generalizing b with
  | nil => nofun
  | cons row rows ih =>
      rw [List.foldlM_cons] at h
      cases hpush : b.push (f row) with
      | error e =>
          rw [hpush] at h
          cases h
      | ok next =>
          rw [hpush] at h
          obtain ⟨hlen, hcolumns⟩ := push_eq_ok_inv hpush
          intro other hother
          rcases List.mem_cons.mp hother with rfl | hother
          · exact hlen
          · rw [← hcolumns]
            exact ih h other hother

end RowBuffer

theorem RecordArray.uneven?_eq_none {α : Type} {width : Nat} {records : List (List α)} (position : Nat)
    (h : ∀ r ∈ records, r.length = width) : uneven? width position records = none := by
  induction records generalizing position with
  | nil => rfl
  | cons r rs ih =>
      rw [uneven?, if_neg (not_not_intro (h r List.mem_cons_self))]
      exact ih (position + 1) fun s hs => h s (List.mem_cons_of_mem r hs)

theorem RecordArray.new_eq_ok {α : Type} {fields : List String} {records : List (List α)}
    (h : ∀ r ∈ records, r.length = fields.length) : new fields records = .ok ⟨fields, records⟩ := by
  rw [new, uneven?_eq_none 1 h]

namespace QueryResult

variable {config : Config} {s : Stepping}

/-- What the host receives for a cell of the engine. -/
def received (config : Config) (c : Cell) : Except BridgeError HostValue :=
  ((ofCell config (c.toHost config.charset)).runWith []).1

/-- The warnings for a cell: those for an array of another platform, where blobs are read as arrays. -/
def cellWarnings (config : Config) : Cell → List Warning
  | .blob b => if config.typedBlobs then NumericArray.originWarnings b else []
  | _ => []

/-- Column names as fields, and the warnings for them. -/
inductive Headed (config : Config) (columns : List String) : List String → List Warning → Prop
  | plain : config.checkUniqueFields = false → Headed config columns (columns.map FieldName.sanitize) []
  | unique {fields : List String} {noted : List Warning} : config.checkUniqueFields = true →
      FieldName.resolve (columns.map FieldName.sanitize) = (fields, noted) → Headed config columns fields noted

/-- What comes of a statement. -/
inductive Transcribed (config : Config) (s : Stepping) : Except BridgeError QueryResult → Prop
  | failed {e : EngineError} : s.failure = some e → Transcribed config s (.error (.engine e))
  | empty : s.failure = none → s.columns = [] ∨ s.rows = [] → Transcribed config s (.ok ⟨.empty, []⟩)
  | unreadable {before after : List Cell} {c : Cell} {e : BridgeError} : s.failure = none → s.columns ≠ [] →
      s.rows.flatten = before ++ c :: after → (∀ d ∈ before, ∃ v, received config d = .ok v) →
      received config c = .error e → Transcribed config s (.error e)
  | records {fields : List String} {noted : List Warning} {values : List (List HostValue)} : s.failure = none →
      s.columns ≠ [] → s.rows ≠ [] → Headed config s.columns fields noted →
      List.Forall₂ (List.Forall₂ fun c v => received config c = .ok v) s.rows values →
      Transcribed config s
        (.ok ⟨.records ⟨fields, values⟩, noted ++ s.rows.flatten.flatMap (cellWarnings config)⟩)

theorem runWith_ofCell_blob (b : Bytes) (w : List Warning) :
    (ofCell config (.blob b)).runWith w =
      (((ofCell config (.blob b)).runWith []).1, w ++ cellWarnings config (.blob b)) := by
  simp only [ofCell, cellWarnings]
  by_cases hempty : b.isEmpty
  · obtain rfl := List.isEmpty_iff.mp hempty
    have hnone : NumericArray.originWarnings [] = [] := by decide
    simp only [hnone, ite_self, List.append_nil]
    rfl
  rw [if_neg hempty]
  by_cases htyped : config.typedBlobs
  · rw [if_pos htyped, if_pos htyped, Warned.runWith_map, Warned.runWith_map, NumericArray.runWith_ofBlob,
      NumericArray.runWith_ofBlob]
  · rw [if_neg htyped, if_neg htyped, List.append_nil]
    rfl

theorem yields_ofCell (config : Config) (c : Cell) :
    Warned.Yields (ofCell config (c.toHost config.charset)) (received config c) (cellWarnings config c) := by
  cases c with
  | null => exact .pure _
  | integer i => exact .pure _
  | float x => exact .pure _
  | text bytes => exact .pure _
  | blob b => exact .of_runWith (runWith_ofCell_blob b)

theorem received_blob {b : Bytes} (h : b ≠ []) (htyped : config.typedBlobs = true) :
    received config (.blob b) =
      ((TypedBlob.decode b).mapError .ofBlob).map fun t => .numeric ⟨t.type, t.dims, t.data⟩ := by
  have hsome : ¬b.isEmpty = true := fun hempty => h (List.isEmpty_iff.mp hempty)
  simp only [received, Cell.toHost, ofCell]
  rw [if_neg hsome, if_pos htyped, Warned.runWith_map, NumericArray.runWith_ofBlob]
  cases TypedBlob.decode b <;> rfl

theorem Headed.fieldNames_eq {columns fields : List String} {noted : List Warning}
    (h : Headed config columns fields noted) : fieldNames columns config = (fields, noted) := by
  cases h with
  | plain hoff =>
      rw [fieldNames, hoff]
      rfl
  | unique hon hresolve =>
      rw [fieldNames, if_pos hon]
      exact hresolve

theorem headed_fieldNames (columns : List String) (config : Config) :
    Headed config columns (fieldNames columns config).1 (fieldNames columns config).2 := by
  cases hcheck : config.checkUniqueFields with
  | false =>
      rw [fieldNames, hcheck]
      exact .plain hcheck
  | true =>
      rw [fieldNames, if_pos hcheck]
      exact .unique hcheck rfl

theorem length_fieldNames (columns : List String) (config : Config) :
    (fieldNames columns config).1.length = columns.length := by
  rw [fieldNames]
  split
  · rw [FieldName.length_resolve, List.length_map]
  · exact List.length_map _

theorem collect_eq (h : ∀ row ∈ s.rows, row.length = s.columns.length) :
    collect s config =
      match s.failure with
      | some e => .error (.engine e)
      | none => .ok ⟨s.columns.length, s.rows.map fun row => row.map (Cell.toHost config.charset)⟩ := by
  have hpush := RowBuffer.foldlM_push_eq_ok (b := .new s.columns.length) (List.map (Cell.toHost config.charset))
    fun row hrow => (List.length_map _).trans (h row hrow)
  rw [collect, hpush]
  cases s.failure <;> rfl

theorem yields_rows (config : Config) (rows : List (List Cell)) :
    Warned.Yields
      ((rows.map fun row => row.map (Cell.toHost config.charset)).mapM fun row : List Cell => row.mapM (ofCell config))
      (rows.mapM fun row : List Cell => row.mapM (received config)) (rows.flatten.flatMap (cellWarnings config)) := by
  rw [List.mapM_map, List.flatten_eq_flatMap, List.flatMap_assoc]
  refine Warned.Yields.mapM (fun row => ?_) rows
  rw [Function.comp_apply, List.mapM_map]
  exact Warned.Yields.mapM (yields_ofCell config) row

theorem length_of_received {columns : List String} {rows : List (List Cell)} {values : List (List HostValue)}
    (h : ∀ row ∈ rows, row.length = columns.length)
    (hvalues : (rows.mapM fun row : List Cell => row.mapM (received config)) = .ok values) :
    ∀ record ∈ values, record.length = columns.length := by
  intro record hrecord
  obtain ⟨row, hrow, hrecord⟩ := Traversal.exists_of_mem hvalues hrecord
  rw [← h row hrow, (Traversal.mapM_eq_ok_iff.mp hrecord).length_eq]

theorem new_of_received {columns : List String} {rows : List (List Cell)} {values : List (List HostValue)}
    (h : ∀ row ∈ rows, row.length = columns.length)
    (hvalues : (rows.mapM fun row : List Cell => row.mapM (received config)) = .ok values) :
    RecordArray.new (fieldNames columns config).1 values = .ok ⟨(fieldNames columns config).1, values⟩ := by
  apply RecordArray.new_eq_ok
  rw [length_fieldNames]
  exact length_of_received h hvalues

theorem ofRows_eq {columns : List String} {rows : List (List Cell)} (h : ∀ row ∈ rows, row.length = columns.length) :
    ofRows columns (rows.map fun row => row.map (Cell.toHost config.charset)) config =
      (rows.mapM fun row : List Cell => row.mapM (received config)).map fun values =>
        ⟨.records ⟨(fieldNames columns config).1, values⟩,
          (fieldNames columns config).2 ++ rows.flatten.flatMap (cellWarnings config)⟩ := by
  have hyields := yields_rows config rows
  cases hvalues : rows.mapM fun row : List Cell => row.mapM (received config) with
  | error e =>
      rw [hvalues] at hyields
      have houtcome := hyields.outcome (fieldNames columns config).2
      simp only [ofRows, houtcome]
      rfl
  | ok values =>
      rw [hvalues] at hyields
      have hrun := hyields.runWith_eq (fieldNames columns config).2
      simp only [ofRows, hrun]
      change (RecordArray.new _ values >>= _) = _
      rw [new_of_received h hvalues]
      rfl

theorem received_eq_ok_iff {rows : List (List Cell)} {values : List (List HostValue)} :
    (rows.mapM fun row : List Cell => row.mapM (received config)) = .ok values ↔
      List.Forall₂ (List.Forall₂ fun c v => received config c = .ok v) rows values := by
  simp only [Traversal.mapM_eq_ok_iff]

theorem received_eq_error_iff {rows : List (List Cell)} {e : BridgeError} :
    (rows.mapM fun row : List Cell => row.mapM (received config)) = .error e ↔
      ∃ before c after, rows.flatten = before ++ c :: after ∧ (∀ d ∈ before, ∃ v, received config d = .ok v) ∧
        received config c = .error e := by
  rw [← Traversal.mapM_eq_error_iff, Traversal.mapM_flatten, Traversal.map_eq_error_iff]

theorem ofStepping_of_failure {e : EngineError} (h : ∀ row ∈ s.rows, row.length = s.columns.length)
    (hfailure : s.failure = some e) : ofStepping s config = .error (.engine e) := by
  rw [ofStepping, collect_eq h, hfailure]
  split <;> rfl

theorem ofStepping_of_empty (h : ∀ row ∈ s.rows, row.length = s.columns.length) (hfailure : s.failure = none)
    (hempty : s.columns = [] ∨ s.rows = []) : ofStepping s config = .ok ⟨.empty, []⟩ := by
  rw [ofStepping, collect_eq h, hfailure]
  by_cases hcolumns : s.columns = []
  · rw [if_pos hcolumns]
    rfl
  · rw [if_neg hcolumns, hempty.resolve_left hcolumns]
    rfl

theorem ofStepping_of_rows (h : ∀ row ∈ s.rows, row.length = s.columns.length) (hfailure : s.failure = none)
    (hcolumns : s.columns ≠ []) (hrows : s.rows ≠ []) :
    ofStepping s config =
      (s.rows.mapM fun row : List Cell => row.mapM (received config)).map fun values =>
        ⟨.records ⟨(fieldNames s.columns config).1, values⟩,
          (fieldNames s.columns config).2 ++ s.rows.flatten.flatMap (cellWarnings config)⟩ := by
  have hsome : ¬RowBuffer.isEmpty ⟨s.columns.length, s.rows.map fun row => row.map (Cell.toHost config.charset)⟩ = true := by
    simpa [RowBuffer.isEmpty] using hrows
  rw [ofStepping, if_neg hcolumns, collect_eq h, hfailure, ← ofRows_eq h]
  exact if_neg hsome

theorem Transcribed.ofStepping_eq {r : Except BridgeError QueryResult}
    (hwidth : ∀ row ∈ s.rows, row.length = s.columns.length) (h : Transcribed config s r) :
    ofStepping s config = r := by
  cases h with
  | failed hfailure => exact ofStepping_of_failure hwidth hfailure
  | empty hfailure hempty => exact ofStepping_of_empty hwidth hfailure hempty
  | @unreadable before after c e hfailure hcolumns hcells hbefore hc =>
      have hrows : s.rows ≠ [] := by
        intro hnil
        rw [hnil] at hcells
        cases before <;> cases hcells
      rw [ofStepping_of_rows hwidth hfailure hcolumns hrows,
        received_eq_error_iff.mpr ⟨before, c, after, hcells, hbefore, hc⟩]
      rfl
  | records hfailure hcolumns hrows hheaded hvalues =>
      rw [ofStepping_of_rows hwidth hfailure hcolumns hrows, received_eq_ok_iff.mpr hvalues, hheaded.fieldNames_eq]
      rfl

theorem exists_transcribed (config : Config) (s : Stepping) : ∃ r, Transcribed config s r := by
  cases hfailure : s.failure with
  | some e => exact ⟨_, .failed hfailure⟩
  | none =>
      by_cases hempty : s.columns = [] ∨ s.rows = []
      · exact ⟨_, .empty hfailure hempty⟩
      obtain ⟨hcolumns, hrows⟩ := not_or.mp hempty
      cases hvalues : s.rows.mapM fun row : List Cell => row.mapM (received config) with
      | ok values =>
          exact ⟨_, .records hfailure hcolumns hrows (headed_fieldNames s.columns config)
            (received_eq_ok_iff.mp hvalues)⟩
      | error e =>
          obtain ⟨before, c, after, hcells, hbefore, hc⟩ := received_eq_error_iff.mp hvalues
          exact ⟨_, .unreadable hfailure hcolumns hcells hbefore hc⟩

theorem empty_of_ofStepping {r : QueryResult} (hcolumns : s.columns = []) (h : ofStepping s config = .ok r) : r = empty := by
  rw [ofStepping, if_pos hcolumns] at h
  cases hfailure : s.failure with
  | none =>
      rw [hfailure] at h
      exact (Except.ok.inj h).symm
  | some e =>
      rw [hfailure] at h
      cases h

theorem width_of_ofStepping {r : QueryResult} (hcolumns : s.columns ≠ []) (h : ofStepping s config = .ok r) :
    ∀ row ∈ s.rows, row.length = s.columns.length := by
  rw [ofStepping, if_neg hcolumns, collect] at h
  cases hrows : s.rows.foldlM (fun b row => b.push (row.map (Cell.toHost config.charset)))
      (RowBuffer.new s.columns.length) with
  | error e =>
      rw [hrows] at h
      cases h
  | ok buffer =>
      intro row hrow
      exact (List.length_map _).symm.trans (RowBuffer.length_of_foldlM_push _ hrows row hrow)

theorem records_of_ofStepping {r : QueryResult} (hcolumns : s.columns ≠ []) (hrows : s.rows ≠ [])
    (h : ofStepping s config = .ok r) :
    ∃ fields noted values, Headed config s.columns fields noted ∧ values.length = s.rows.length ∧
      (∀ record ∈ values, record.length = s.columns.length) ∧
      r = ⟨.records ⟨fields, values⟩, noted ++ s.rows.flatten.flatMap (cellWarnings config)⟩ := by
  have hwidth := width_of_ofStepping hcolumns h
  obtain ⟨r', hr'⟩ := exists_transcribed config s
  rw [hr'.ofStepping_eq hwidth] at h
  cases hr' with
  | failed hfailure => cases h
  | empty hfailure hempty => exact absurd hempty (not_or.mpr ⟨hcolumns, hrows⟩)
  | unreadable hfailure _ hcells hbefore hc => cases h
  | records hfailure _ _ hheaded hvalues =>
      have hrecords := length_of_received hwidth (received_eq_ok_iff.mpr hvalues)
      exact ⟨_, _, _, hheaded, hvalues.length_eq.symm, hrecords, (Except.ok.inj h).symm⟩

/-- A statement whose rows are as wide as its columns has the one result for which there is a reason. Neither a
row that comes nor a record that is made is ever found uneven. -/
theorem ofStepping_exact (s : Stepping) (config : Config)
    (hwidth : ∀ row ∈ s.rows, row.length = s.columns.length) :
    (∀ r, ofStepping s config = r ↔ Transcribed config s r) ∧
      (∀ k, (s.rows.take k).foldlM (fun b row => b.push (row.map (Cell.toHost config.charset)))
          (RowBuffer.new s.columns.length) =
        .ok ⟨s.columns.length, (s.rows.take k).map fun row => row.map (Cell.toHost config.charset)⟩) ∧
      ∀ fields noted values, Headed config s.columns fields noted →
        List.Forall₂ (List.Forall₂ fun c v => received config c = .ok v) s.rows values →
        RecordArray.new fields values = .ok ⟨fields, values⟩ := by
  refine ⟨fun r => ⟨?_, Transcribed.ofStepping_eq hwidth⟩, fun k => ?_, fun fields noted values hheaded hvalues => ?_⟩
  · rintro rfl
    obtain ⟨r, hr⟩ := exists_transcribed config s
    rwa [hr.ofStepping_eq hwidth]
  · exact RowBuffer.foldlM_push_eq_ok (b := .new s.columns.length) (List.map (Cell.toHost config.charset))
      fun row hrow => (List.length_map _).trans (hwidth row (List.mem_of_mem_take hrow))
  · have hnew := new_of_received hwidth (received_eq_ok_iff.mpr hvalues)
    rwa [hheaded.fieldNames_eq] at hnew

/-- Two columns of one name and a blob from another platform. -/
theorem ofStepping_exact_foreign :
    ∃ s : Stepping, s.columns = ["a b", "a b"] ∧ (∀ row ∈ s.rows, row.length = s.columns.length) ∧
      ofStepping s { typedBlobs := true } =
        .ok ⟨.records ⟨["a_b", "a_b_1"],
            [[.double (.ofInt 1), .numeric ⟨.uint8, [1, 2], [7, 8]⟩], [.empty, .text [104]]]⟩,
          [.differentOrigin "HOST" .big]⟩ := by
  let blob := TypedBlob.layout ⟨"HOST", .big⟩ .uint8 [1, 2] [7, 8]
  let s : Stepping := ⟨["a b", "a b"], [[.integer 1, .blob blob], [.null, .text [104]]], none⟩
  have hwidth : ∀ row ∈ s.rows, row.length = s.columns.length := by decide
  have hheaded : Headed { typedBlobs := true } s.columns ["a_b", "a_b_1"] [] := .unique rfl (by decide)
  have hdecode : TypedBlob.decode blob = .ok ⟨.uint8, [1, 2], [7, 8], "HOST", .big⟩ := by decide
  have hblob : received { typedBlobs := true } (.blob blob) = .ok (.numeric ⟨.uint8, [1, 2], [7, 8]⟩) := by
    have hne : blob ≠ [] := by decide
    rw [received_blob hne rfl, hdecode]
    rfl
  have hwarnings : s.rows.flatten.flatMap (cellWarnings { typedBlobs := true }) =
      [.differentOrigin "HOST" .big] := by decide
  have hrecords : Transcribed { typedBlobs := true } s _ :=
    .records rfl nofun nofun hheaded (.cons (.cons rfl (.cons hblob .nil)) (.cons (.cons rfl (.cons rfl .nil)) .nil))
  rw [hwarnings] at hrecords
  exact ⟨s, rfl, hwidth, ((ofStepping_exact s _ hwidth).1 _).mpr hrecords⟩

end QueryResult

end ArrayBridge
