import ArrayBridge.Proofs.Latin1
import ArrayBridge.Proofs.QueryResult
import ArrayBridge.Proofs.Session

/-!
A statement given as a host string. Where text is converted every string has a text, otherwise it has one only if it is
UTF-8, and one that has none is refused before the engine hears of it. No statement that has a text ends in that error.
-/
namespace ArrayBridge

/-- What a statement can end in once it has a text. -/
inductive RunError : BridgeError → Prop
  | engine (e : EngineError) : RunError (.engine e)
  | unexpectedArguments (expected given : Nat) : RunError (.unexpectedArguments expected given)
  | unsupportedType (name : String) : RunError (.unsupportedType name)
  | unbindable (name : String) : RunError (.invalidArgument (.unbindable name))
  | unreadableScalar (type : ElementType) : RunError (.invalidArgument (.unreadableScalar type))
  | blob (e : BlobError) : RunError (.ofBlob e)

theorem RunError.ne_statementEncoding {e : BridgeError} (h : RunError e) : e ≠ .invalidArgument .statementEncoding := by
  cases h with
  | blob e => cases e <;> nofun
  | _ => nofun

namespace Parameter

variable {config : Config} {v : HostValue} {a : NumericArray} {e : BridgeError}

theorem runError_of_resolve {slots : Nat} {args : List HostValue} (h : resolve slots args = .error e) : RunError e := by
  unfold resolve at h
  dsimp only [bind, Except.bind, pure, Except.pure, throw, throwThe, MonadExceptOf.throw] at h
  repeat' split at h
  all_goals cases h
  all_goals exact .unexpectedArguments _ _

theorem runError_of_ofScalar (h : ofScalar a = .error e) : RunError e := by
  rw [ofScalar] at h
  split at h
  · cases h
  · cases h
    exact .unreadableScalar a.type

theorem runError_of_toBlob (h : a.toBlob config = .error e) : RunError e := by
  rw [NumericArray.toBlob] at h
  cases hblob : TypedBlob.encode a.type a.dims a.data config.maxBlobSize with
  | ok b =>
      rw [hblob] at h
      cases h
  | error f =>
      rw [hblob] at h
      cases h
      exact .blob f

theorem runError_of_ofArray (h : ofArray config a = .error e) : RunError e := by
  rw [ofArray] at h
  split at h
  · cases h
  · split at h
    · exact runError_of_ofScalar h
    · split at h
      · exact runError_of_toBlob (Traversal.map_eq_error_iff.mp h)
      · cases h

theorem runError_of_ofValue (h : ofValue config v = .error e) : RunError e := by
  unfold ofValue at h
  split at h
  · cases h
  · cases v with
    | numeric a => exact runError_of_ofArray h
    | text bytes => cases h
    | complex real imag => cases h; exact .unsupportedType _
    | cell items => cases h; exact .unsupportedType _
    | struct records => cases h; exact .unsupportedType _
    | object name => cases h; exact .unbindable name

theorem Filled.runError {args : List HostValue} {held after : List Cell}
    (h : Filled config args held (.error e) after) : RunError e := by
  cases h with
  | unresolved hresolve => exact runError_of_resolve hresolve
  | unencodable hresolve hbefore hv => exact runError_of_ofValue hv

end Parameter

namespace QueryResult

variable {config : Config} {e : BridgeError}

theorem runError_of_received {c : Cell} (h : received config c = .error e) : RunError e := by
  cases c with
  | null | integer _ | float _ | text _ => cases h
  | blob b =>
      by_cases hempty : b = []
      · subst hempty
        cases h
      · cases htyped : config.typedBlobs with
        | false =>
            have hplain : received config (.blob b) = .ok (.numeric (.ofBytes b)) := by
              simp only [received, Cell.toHost, ofCell]
              rw [if_neg (mt List.isEmpty_iff.mp hempty), htyped]
              rfl
            rw [hplain] at h
            cases h
        | true =>
            rw [received_blob hempty htyped, Traversal.map_eq_error_iff] at h
            cases hdecode : TypedBlob.decode b with
            | ok t =>
                rw [hdecode] at h
                cases h
            | error f =>
                rw [hdecode] at h
                cases h
                exact .blob f

theorem runError_of_ofStepping {s : Stepping} (hwidth : ∀ row ∈ s.rows, row.length = s.columns.length)
    (h : ofStepping s config = .error e) : RunError e := by
  obtain ⟨r, htranscribed⟩ := exists_transcribed config s
  obtain rfl := (htranscribed.ofStepping_eq hwidth).symm.trans h
  cases htranscribed with
  | failed _ => exact .engine _
  | unreadable _ _ _ _ hc => exact runError_of_received hc

end QueryResult

namespace Session

variable {σ ρ : Type} {E : Engine σ ρ} {s : Session σ} {bytes : Bytes} {sql : String}

theorem runError_of_query (hE : E.Rectangular) {args : List HostValue} {e : BridgeError}
    (h : (s.query E sql args).1 = .error e) : RunError e := by
  obtain ⟨r, t, hanswered⟩ := exists_answered E s sql args
  rw [hanswered.query_eq] at h
  obtain rfl : r = .error e := h
  -- The answer is named again, so that the cases are not those of an error alone.
  generalize hr : (Except.error e : Except BridgeError QueryResult) = r at hanswered
  cases hanswered with
  | unprepared hprepare =>
      cases hr
      exact .engine _
  | unbound hprepare hfill =>
      cases hr
      exact hfill.runError
  | @stepped p prepared engine n held stepping hprepare hfill hstep =>
      have hwidth := hE p (held.map Cell.bound) prepared
      rw [hstep] at hwidth
      exact QueryResult.runError_of_ofStepping hwidth hr.symm

/-! The text of a host string. -/

theorem queryChars_of_text {cs : List Char} (h : Utf8.encode cs = s.config.charset.toEngine bytes)
    (args : List HostValue) : s.queryChars E bytes args = s.query E (String.ofList cs) args := by
  rw [queryChars, Utf8.decode?_eq_some_iff.mpr h]

theorem queryChars_of_no_text (h : ∀ cs, Utf8.encode cs ≠ s.config.charset.toEngine bytes) (args : List HostValue) :
    s.queryChars E bytes args = (.error (.invalidArgument .statementEncoding), s) := by
  have hnone : Utf8.decode? (s.config.charset.toEngine bytes) = none :=
    Option.eq_none_iff_forall_ne_some.mpr fun cs hcs => h cs (Utf8.decode?_eq_some_iff.mp hcs)
  rw [queryChars, hnone]

theorem queryChars_of_convert (h : s.config.charset = .convert) (args : List HostValue) :
    s.queryChars E bytes args = s.query E (String.ofList (latin1 bytes.untilNul)) args := by
  refine queryChars_of_text ?_ args
  rw [h]
  exact Charset.encode_latin1 bytes.untilNul

theorem queryChars_of_identity (h : s.config.charset = .identity) (hsql : Utf8.encode sql.toList = bytes.untilNul)
    (args : List HostValue) : s.queryChars E bytes args = s.query E sql args := by
  have htext : Utf8.encode sql.toList = s.config.charset.toEngine bytes := by rw [h, hsql, Charset.toEngine]
  rw [queryChars_of_text htext, String.ofList_toList]

theorem queryChars_of_invalid (h : s.config.charset = .identity)
    (hsql : ∀ sql : String, Utf8.encode sql.toList ≠ bytes.untilNul) (args : List HostValue) :
    s.queryChars E bytes args = (.error (.invalidArgument .statementEncoding), s) := by
  refine queryChars_of_no_text (fun cs hcs => hsql (String.ofList cs) ?_) args
  rw [String.toList_ofList, hcs, h, Charset.toEngine]

/-- A host string is run as the statement with its text: one character a byte where text is converted, and otherwise
the text whose UTF-8 form it is. A string that would have to be UTF-8 and is not is refused before the engine hears of
it, and it is the only one to be refused as such if the engine yields rows as wide as its columns. -/
theorem queryChars_exact (E : Engine σ ρ) (s : Session σ) (bytes : Bytes) (args : List HostValue) :
    (s.config.charset = .convert →
        ∃ sql : String, sql.toList.map Char.toNat = (bytes.takeWhile (· ≠ 0)).map UInt8.toNat ∧
          s.queryChars E bytes args = s.query E sql args) ∧
      (s.config.charset = .identity →
        (∀ sql : String, Utf8.encode sql.toList = bytes.takeWhile (· ≠ 0) →
            s.queryChars E bytes args = s.query E sql args) ∧
          ((∀ sql : String, Utf8.encode sql.toList ≠ bytes.takeWhile (· ≠ 0)) → ∀ engine,
            queryChars E { s with engine } bytes args =
              (.error (.invalidArgument .statementEncoding), { s with engine }))) ∧
      (E.Rectangular → ((s.queryChars E bytes args).1 = .error (.invalidArgument .statementEncoding) ↔
        s.config.charset = .identity ∧ ∀ sql : String, Utf8.encode sql.toList ≠ bytes.takeWhile (· ≠ 0))) := by
  refine ⟨fun h => ⟨_, ?_, queryChars_of_convert h args⟩, fun h => ⟨fun sql hsql => ?_, fun hsql engine => ?_⟩,
    fun hE => ⟨fun herror => ?_, ?_⟩⟩
  · rw [String.toList_ofList, toNat_latin1]
    rfl
  · exact queryChars_of_identity h hsql args
  · exact queryChars_of_invalid (s := { s with engine }) h hsql args
  · cases hmode : s.config.charset with
    | convert =>
        rw [queryChars_of_convert hmode] at herror
        exact absurd rfl (runError_of_query hE herror).ne_statementEncoding
    | identity =>
        refine ⟨rfl, fun sql hsql => ?_⟩
        rw [queryChars_of_identity hmode hsql] at herror
        exact absurd rfl (runError_of_query hE herror).ne_statementEncoding
  · rintro ⟨hmode, hsql⟩
    rw [queryChars_of_invalid hmode hsql]

/-- The byte of an accented letter in Latin-1 is no UTF-8 by itself. What stands behind the NUL is not read. -/
theorem queryChars_exact_accented :
    (∃ sql : String, sql.toList.map Char.toNat = [0xFC] ∧
        queryChars Sql.engine ⟨.opened {}, {}⟩ [0xFC, 0, 65] [] = query Sql.engine ⟨.opened {}, {}⟩ sql []) ∧
      queryChars Sql.engine ⟨.opened {}, { convertUtf8 := false }⟩ [0xC3, 0xBC, 0, 65] [] =
        query Sql.engine ⟨.opened {}, { convertUtf8 := false }⟩ "ü" [] ∧
      (queryChars Sql.engine ⟨.opened {}, { convertUtf8 := false }⟩ [0xFC, 0, 65] []).1 =
        .error (.invalidArgument .statementEncoding) := by
  have hinvalid : ∀ sql : String, Utf8.encode sql.toList ≠ ([0xFC, 0, 65] : Bytes).takeWhile (· ≠ 0) := by
    intro sql hsql
    have hnone : Utf8.decode? (([0xFC, 0, 65] : Bytes).takeWhile (· ≠ 0)) = none := by decide
    cases hnone.symm.trans (Utf8.decode?_eq_some_iff.mpr hsql)
  have hconvert := (queryChars_exact Sql.engine ⟨.opened {}, {}⟩ [0xFC, 0, 65] []).1 rfl
  have hidentity := (queryChars_exact Sql.engine ⟨.opened {}, { convertUtf8 := false }⟩ [0xC3, 0xBC, 0, 65] []).2.1 rfl
  refine ⟨hconvert, hidentity.1 "ü" (by decide), ?_⟩
  exact ((queryChars_exact _ _ _ _).2.2 Sql.engine_rectangular).mpr ⟨rfl, hinvalid⟩

end Session

end ArrayBridge
