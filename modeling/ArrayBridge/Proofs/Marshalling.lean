import ArrayBridge.Proofs.Charset
import ArrayBridge.Proofs.ElementAccess
import ArrayBridge.Proofs.StoredArray
import ArrayBridge.Proofs.TypedBlob.RoundTrip
import ArrayBridge.Parameter
import ArrayBridge.QueryResult

/-!
A host value on its way through a slot of a statement and a column of its result.
-/
namespace ArrayBridge

/-- Values without the bytes of an element, and lists without an item. -/
inductive HostValue.Vacant : HostValue → Prop
  | array {a : NumericArray} : a.data.length < a.type.size → Vacant (.numeric a)
  | text : Vacant (.text [])
  | complex {real imag : NumericArray} : real.data.length < real.type.size → Vacant (.complex real imag)
  | cell : Vacant (.cell [])
  | struct {fields : List String} : Vacant (.struct ⟨fields, []⟩)

/-- What stands for a NULL: one NaN, or an array of no elements. -/
def absent (config : Config) : HostValue :=
  if config.nullAsNan then .numeric ⟨.double, [1, 1], [0, 0, 0, 0, 0, 0, 0xF8, 0x7F]⟩ else .numeric ⟨.double, [0, 0], []⟩

/-- What the host receives for a value that it bound. Data may go on behind the one element it holds, with less than
another one. -/
inductive Returned (config : Config) : HostValue → HostValue → Prop
  | vacant {v : HostValue} : v.Vacant → Returned config v (absent config)
  | text {bytes : Bytes} : bytes ≠ [] → Returned config (.text bytes) (.text (bytes.takeWhile (· ≠ 0)))
  | char {dims : List Nat} {data : Bytes} : 2 ≤ data.length →
      Returned config (.numeric ⟨.char, dims, data⟩) (.text ((narrowed data).takeWhile (· ≠ 0)))
  | nan {type : ElementType} {dims : List Nat} {word rest : Bytes} : NotANumber type word → rest.length < type.size →
      Returned config (.numeric ⟨type, dims, word ++ rest⟩) (absent config)
  | scalar {type : ElementType} {dims : List Nat} {word rest out : Bytes} : Becomes type word out →
      rest.length < type.size → Returned config (.numeric ⟨type, dims, word ++ rest⟩) (.numeric ⟨.double, [1, 1], out⟩)
  | stored {a : NumericArray} : a.type ≠ .char → 2 * a.type.size ≤ a.data.length → config.typedBlobs = true →
      Returned config (.numeric a) (.numeric a)
  | raw {a : NumericArray} : a.type ≠ .char → 2 * a.type.size ≤ a.data.length → config.typedBlobs = false →
      Returned config (.numeric a) (.numeric ⟨.uint8, [1, a.data.length], a.data⟩)

variable {config : Config} {a : NumericArray} {v r : HostValue} {p : Cell}

namespace NumericArray

theorem isEmpty_iff : a.isEmpty = true ↔ a.data.length < a.type.size := by
  rw [isEmpty, decide_eq_true_iff, count, Nat.div_eq_zero_iff_lt a.type.size_pos]

theorem two_le_count_iff : 2 ≤ a.count ↔ 2 * a.type.size ≤ a.data.length := Nat.le_div_iff_mul_le a.type.size_pos

/-- Data of one element, and less than another, is an array of that element. -/
theorem toList?_append {t : ElementType} {dims : List Nat} {word rest : Bytes} (hlen : word.length = t.size)
    (hrest : rest.length < t.size) : toList? ⟨t, dims, word ++ rest⟩ t = some [t.load word] := by
  have hscalar : isScalar ⟨t, dims, word ++ rest⟩ = true := by
    refine decide_eq_true (Nat.div_eq_of_lt_le ?_ ?_) <;> rw [List.length_append] <;> dsimp only <;> omega
  rw [toList?_of_isScalar hscalar, List.take_left' hlen]

theorem isEmpty_eq_false (h : 1 ≤ a.count) : a.isEmpty = false := decide_eq_false (by omega)

theorem data_ne_nil (h : 1 ≤ a.count) : a.data ≠ [] := by
  intro hnil
  rw [count, hnil, List.length_nil, Nat.zero_div] at h
  omega

end NumericArray

namespace HostValue

theorem vacant_iff : v.Vacant ↔ v.isEmpty = true := by
  constructor
  · intro h
    cases h with
    | array hshort | complex hshort => exact NumericArray.isEmpty_iff.mpr hshort
    | text | cell | struct => rfl
  · intro h
    cases v with
    | numeric a => exact .array (NumericArray.isEmpty_iff.mp h)
    | complex real imag => exact .complex (NumericArray.isEmpty_iff.mp h)
    | text bytes =>
        obtain rfl : bytes = [] := List.isEmpty_iff.mp h
        exact .text
    | cell items =>
        obtain rfl : items = [] := List.isEmpty_iff.mp h
        exact .cell
    | struct r =>
        obtain ⟨fields, records⟩ := r
        obtain rfl : records = [] := List.isEmpty_iff.mp h
        exact .struct
    | object name => cases h

/-- A double is an array of its own bytes. -/
theorem double_eq {x : Binary64} {out : Bytes} (hlen : out.length = 8) (h : little out = x.bits.toNat) :
    double x = .numeric ⟨.double, [1, 1], out⟩ := by
  rw [double, NumericArray.scalar, ElementType.store, ← h, ← Bytes.toNat_eq_little, Bytes.ofNat_toNat_of_length hlen]

end HostValue

namespace Parameter

theorem ofValue_of_isEmpty {v : HostValue} (h : v.isEmpty = true) : ofValue config v = .ok .null := if_pos h

theorem ofValue_text {bytes : Bytes} (h : bytes ≠ []) :
    ofValue config (.text bytes) = .ok (.text (config.charset.toEngine bytes)) := by
  cases bytes with
  | nil => exact absurd rfl h
  | cons b r => rfl

theorem ofValue_numeric (h : a.isEmpty = false) : ofValue config (.numeric a) = ofArray config a := by
  rw [ofValue, HostValue.isEmpty, h]
  rfl

theorem ofValue_char {bytes : Bytes} (hchar : a.type = .char) (h : a.isEmpty = false)
    (hbytes : a.charBytes = some bytes) :
    ofValue config (.numeric a) = .ok (.text (config.charset.toEngine bytes)) := by
  rw [ofValue_numeric h, ofArray, if_pos hchar, hbytes]
  rfl

theorem ofValue_singleton {e : a.type.Value} (hchar : a.type ≠ .char) (h : a.toList? a.type = some [e]) :
    ofValue config (.numeric a) =
      .ok (if a.type.isFloat then .float (a.type.toDouble e) else .integer (a.type.toInt64 e)) := by
  obtain ⟨hscalar, -, -⟩ := NumericArray.of_toList?_singleton h
  have hcount := NumericArray.count_of_toList? h
  rw [ofValue_numeric (NumericArray.isEmpty_eq_false hcount.ge), ofArray, if_neg hchar, if_pos hscalar, ofScalar,
    NumericArray.double?_zero h, NumericArray.int64?_zero h]
  cases a.type.isFloat with
  | false => rfl
  | true => rfl

theorem ofValue_several (hchar : a.type ≠ .char) (h : 2 ≤ a.count) :
    ofValue config (.numeric a) =
      if config.typedBlobs then (a.toBlob config).map .blob else .ok (.blob a.data) := by
  have hscalar : ¬a.isScalar = true := fun he => by
    have := of_decide_eq_true he
    omega
  rw [ofValue_numeric (NumericArray.isEmpty_eq_false (by omega)), ofArray, if_neg hchar, if_neg hscalar]

theorem ofValue_scalar {t : ElementType} {dims : List Nat} {word rest : Bytes} (hchar : t ≠ .char)
    (hlen : word.length = t.size) (hrest : rest.length < t.size) :
    ofValue config (.numeric ⟨t, dims, word ++ rest⟩) =
      .ok (if t.isFloat then .float (t.toDouble (t.load word)) else .integer (t.toInt64 (t.load word))) :=
  ofValue_singleton hchar (NumericArray.toList?_append hlen hrest)

theorem toBlob_of_ofValue (hchar : a.type ≠ .char) (h : 2 ≤ a.count) (htyped : config.typedBlobs = true)
    (hp : ofValue config (.numeric a) = .ok p) : ∃ b, a.toBlob config = .ok b ∧ p = .blob b := by
  rw [ofValue_several hchar h, if_pos htyped] at hp
  cases hblob : a.toBlob config with
  | error e =>
      rw [hblob] at hp
      cases hp
  | ok b =>
      rw [hblob] at hp
      exact ⟨b, rfl, (Except.ok.inj hp).symm⟩

end Parameter

/-- A bound cell, as the engine gives it back and as the host sees it. -/
def returned (config : Config) (p : Cell) : Warned HostValue :=
  QueryResult.ofCell config (p.bound.toHost config.charset)

theorem returned_text (bytes : Bytes) :
    returned config (.text (config.charset.toEngine bytes)) = pure (.text bytes.untilNul) := by
  rw [← Charset.toHost_toEngine config.charset bytes]
  rfl

theorem returned_float {x : Binary64} (h : ¬x.isNaN = true) : returned config (.float x) = pure (.double x) := by
  rw [returned, Cell.bound, if_neg h]
  rfl

theorem returned_nan {x : Binary64} (h : x.isNaN = true) : returned config (.float x) = pure (absent config) := by
  rw [returned, Cell.bound, if_pos h]
  rfl

theorem returned_integer (i : Int64) : returned config (.integer i) = pure (.double (.ofInt i.toInt)) := rfl

theorem returned_blob {b : Bytes} (h : b ≠ []) :
    returned config (.blob b) =
      if config.typedBlobs then HostValue.numeric <$> NumericArray.ofBlob b
      else pure (.numeric (.ofBytes b)) := by
  cases b with
  | nil => exact absurd rfl h
  | cons c r => rfl

theorem returned_toBlob {b : Bytes} (h : a.toBlob config = .ok b) (htyped : config.typedBlobs = true)
    (w : List Warning) : (returned config (.blob b)).runWith w = (.ok (.numeric a), w) := by
  rw [returned_blob (NumericArray.ne_nil_of_toBlob h), if_pos htyped]
  rw [Warned.runWith_map, NumericArray.ofBlob_of_toBlob h w]
  rfl

theorem returned_of_becomes {type : ElementType} {dims : List Nat} {word rest out : Bytes}
    (h : Becomes type word out) (hrest : rest.length < type.size)
    (hp : Parameter.ofValue config (.numeric ⟨type, dims, word ++ rest⟩) = .ok p) :
    returned config p = pure (.numeric ⟨.double, [1, 1], out⟩) := by
  obtain ⟨hchar, hlen⟩ := h.length_eq
  rw [Parameter.ofValue_scalar hchar hlen hrest] at hp
  cases hfloat : type.isFloat with
  | true =>
      obtain ⟨hnumber, hout, hsame⟩ := (becomes_iff_of_isFloat hfloat hlen).mp h
      rw [if_pos hfloat] at hp
      cases hp
      rw [returned_float (mt (NotANumber.iff_isNaN hfloat hlen).mpr hnumber), HostValue.double_eq hout hsame]
  | false =>
      obtain ⟨hout, hsame⟩ := (becomes_iff_of_not_isFloat hfloat hchar hlen).mp h
      rw [if_neg (ne_true_of_eq_false hfloat)] at hp
      cases hp
      rw [returned_integer, HostValue.double_eq hout hsame]

theorem Returned.returned_eq (h : Returned config v r) (hp : Parameter.ofValue config v = .ok p) (w : List Warning) :
    (returned config p).runWith w = (.ok r, w) := by
  cases h with
  | vacant hvacant =>
      rw [Parameter.ofValue_of_isEmpty (HostValue.vacant_iff.mp hvacant)] at hp
      cases hp
      rfl
  | text hne =>
      rw [Parameter.ofValue_text hne] at hp
      cases hp
      rw [returned_text]
      rfl
  | @char dims data hsome =>
      have hempty := mt (NumericArray.isEmpty_iff (a := ⟨.char, dims, data⟩)).mp (Nat.not_lt.mpr hsome)
      rw [Parameter.ofValue_char rfl (eq_false_of_ne_true hempty) (charBytes_eq dims data)] at hp
      cases hp
      rw [returned_text]
      rfl
  | nan hnan hrest =>
      obtain ⟨hfloat, hlen⟩ := hnan.length_eq
      rw [Parameter.ofValue_scalar (ElementType.ne_char_of_isFloat hfloat) hlen hrest, if_pos hfloat] at hp
      cases hp
      rw [returned_nan ((NotANumber.iff_isNaN hfloat hlen).mp hnan)]
      rfl
  | scalar hbecomes hrest =>
      rw [returned_of_becomes hbecomes hrest hp]
      rfl
  | stored hchar hseveral htyped =>
      obtain ⟨b, hblob, rfl⟩ :=
        Parameter.toBlob_of_ofValue hchar (NumericArray.two_le_count_iff.mpr hseveral) htyped hp
      exact returned_toBlob hblob htyped w
  | raw hchar hseveral htyped =>
      have hcount := NumericArray.two_le_count_iff.mpr hseveral
      rw [Parameter.ofValue_several hchar hcount, if_neg (ne_true_of_eq_false htyped)] at hp
      cases hp
      rw [returned_blob (NumericArray.data_ne_nil (Nat.le_of_succ_le hcount)), if_neg (ne_true_of_eq_false htyped)]
      rfl

theorem exists_returned_scalar {t : ElementType} {dims : List Nat} {word rest : Bytes} (hchar : t ≠ .char)
    (hlen : word.length = t.size) (hrest : rest.length < t.size) :
    ∃ r, Returned config (.numeric ⟨t, dims, word ++ rest⟩) r := by
  cases hfloat : t.isFloat with
  | true =>
      by_cases hnan : NotANumber t word
      · exact ⟨_, .nan hnan hrest⟩
      · obtain ⟨out, hout, hsame⟩ := Bytes.exists_little (n := 8) (t.toDouble (t.load word)).bits.toNat_lt
        exact ⟨_, .scalar ((becomes_iff_of_isFloat hfloat hlen).mpr ⟨hnan, hout, hsame⟩) hrest⟩
  | false =>
      obtain ⟨out, hout, hsame⟩ :=
        Bytes.exists_little (n := 8) (Binary64.ofInt (t.toInt64 (t.load word)).toInt).bits.toNat_lt
      exact ⟨_, .scalar ((becomes_iff_of_not_isFloat hfloat hchar hlen).mpr ⟨hout, hsame⟩) hrest⟩

theorem exists_returned_array (h : a.isEmpty = false) : ∃ r, Returned config (.numeric a) r := by
  obtain ⟨type, dims, data⟩ := a
  have hone : type.size ≤ data.length := Nat.not_lt.mp fun hlt => ne_true_of_eq_false h (NumericArray.isEmpty_iff.mpr hlt)
  by_cases hchar : type = .char
  · subst hchar
    exact ⟨_, .char hone⟩
  rcases Nat.lt_or_ge data.length (2 * type.size) with hscalar | hseveral
  · have hreturned : ∃ r, Returned config (.numeric ⟨type, dims, data.take type.size ++ data.drop type.size⟩) r :=
      exists_returned_scalar hchar (List.length_take_of_le hone) (by rw [List.length_drop]; omega)
    rwa [List.take_append_drop] at hreturned
  · cases htyped : config.typedBlobs with
    | true => exact ⟨_, .stored hchar hseveral htyped⟩
    | false => exact ⟨_, .raw hchar hseveral htyped⟩

theorem exists_returned (hp : Parameter.ofValue config v = .ok p) : ∃ r, Returned config v r := by
  cases hempty : v.isEmpty with
  | true => exact ⟨_, .vacant (HostValue.vacant_iff.mpr hempty)⟩
  | false =>
      cases v with
      | numeric a => exact exists_returned_array hempty
      | text bytes => exact ⟨_, .text fun he => by rw [he] at hempty; cases hempty⟩
      | complex _ _ | cell _ | struct _ | object _ =>
          rw [Parameter.ofValue, hempty] at hp
          cases hp

/-- A value that could be bound comes back as the one value that its kind leads to, and no warning is added
to those there are. -/
theorem ofCell_ofValue (config : Config) (v : HostValue) (p : Cell) (h : Parameter.ofValue config v = .ok p) :
    ∃ r, Returned config v r ∧ (∀ r', Returned config v r' → r' = r) ∧
      ∀ w : List Warning, (QueryResult.ofCell config (p.bound.toHost config.charset)).runWith w = (.ok r, w) := by
  obtain ⟨r, hr⟩ := exists_returned h
  refine ⟨r, hr, fun r' hr' => ?_, hr.returned_eq h⟩
  have hsame := (hr'.returned_eq h []).symm.trans (hr.returned_eq h [])
  exact Except.ok.inj (Prod.mk.inj hsame).1

theorem ofCell_ofValue_row :
    ∃ p, Parameter.ofValue { typedBlobs := true } (.numeric (.row .int16 [1, -1])) = .ok p ∧
      (QueryResult.ofCell { typedBlobs := true } (p.bound.toHost .convert)).runWith [] =
        (.ok (.numeric (.row .int16 [1, -1])), []) := by
  have h : Parameter.ofValue { typedBlobs := true } (.numeric (.row .int16 [1, -1])) =
      .ok (.blob (TypedBlob.layout .current .int16 [1, 2] [1, 0, 255, 255])) := by decide
  obtain ⟨r, -, hunique, hback⟩ := ofCell_ofValue _ _ _ h
  have hrow := hunique _ (.stored (by decide) (by decide) rfl)
  exact ⟨_, h, hrow ▸ hback []⟩

end ArrayBridge
