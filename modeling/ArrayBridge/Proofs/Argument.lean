import ArrayBridge.Command
import ArrayBridge.Proofs.Latin1
import ArrayBridge.Proofs.Marshalling

/-!
A text on the command line, on its way through a slot and a column back to the display.
-/
namespace ArrayBridge.Command

/-- A text as far as host text can have it: where text is converted, a character without a single byte is replaced. -/
def hosted : Charset → List Char → List Char
  | .convert, cs => cs.map fun c => if c.toNat ≤ 0xFF then c else '?'
  | .identity, cs => cs

/-- The bytes of a text on the host. -/
def hostBytes : Charset → List Char → Bytes
  | .convert, cs => latin1Bytes cs
  | .identity, cs => Utf8.encode cs

variable {charset : Charset} {cs : List Char}

theorem zero_notMem_hostBytes (charset : Charset) (h : '\x00' ∉ cs) : 0 ∉ hostBytes charset cs := by
  intro hmem
  cases charset with
  | convert =>
      obtain ⟨c, hc, hzero⟩ := List.mem_map.mp hmem
      refine narrowUnit_ne_zero (fun hnul => h ?_) hzero
      have hchar : c = '\x00' := by rw [← Char.ofNat_toNat c, hnul]
      exact hchar ▸ hc
  | identity =>
      obtain ⟨c, hc, hzero⟩ := List.mem_flatMap.mp hmem
      exact Utf8.zero_notMem_encodeChar (fun hchar => h (hchar ▸ hc)) hzero

theorem hostBytes_ne_nil (h : cs ≠ []) : hostBytes charset cs ≠ [] := by
  obtain ⟨c, r, rfl⟩ := List.exists_cons_of_ne_nil h
  cases charset with
  | convert => exact List.cons_ne_nil _ _
  | identity =>
      intro hnil
      have hform := (List.append_eq_nil_iff.mp hnil).1
      have hsize := String.length_utf8EncodeChar c
      have hpos := c.utf8Size_pos
      rw [hform, List.length_nil] at hsize
      omega

theorem toEngine_hostBytes (h : '\x00' ∉ cs) :
    charset.toEngine (hostBytes charset cs) = Utf8.encode (hosted charset cs) := by
  have hfull := Bytes.untilNul_eq_self (zero_notMem_hostBytes charset h)
  cases charset with
  | convert =>
      rw [Charset.toEngine, Charset.toUtf8, hfull, hostBytes, ← Charset.encode_latin1, latin1_latin1Bytes]
      rfl
  | identity => exact hfull

theorem hostText_hostBytes (charset : Charset) (cs : List Char) :
    Render.hostText charset (hostBytes charset cs) = String.ofList (hosted charset cs) := by
  cases charset with
  | convert => exact congrArg String.ofList (latin1_latin1Bytes cs)
  | identity => exact congrArg String.ofList (Utf8.decodeLossy_encode cs)

theorem argument_eq_text {s : String} (hempty : s ≠ "") (hnull : s ≠ "null")
    (hnumber : Decimal.parse? s.toList = none) : argument charset s = .text (hostBytes charset s.toList) := by
  have hsome : ¬(s = "" ∨ s = "null") := not_or.mpr ⟨hempty, hnull⟩
  unfold argument
  rw [if_neg hsome, hnumber]
  cases charset <;> rfl

theorem returned_hostBytes (config : Config) (h : '\x00' ∉ cs) (w : List Warning) :
    (returned config (.text (config.charset.toEngine (hostBytes config.charset cs)))).runWith w =
      (.ok (.text (hostBytes config.charset cs)), w) := by
  rw [returned_text, Bytes.untilNul_eq_self (zero_notMem_hostBytes config.charset h)]
  rfl

/-- A text that is no number is bound as its UTF-8 form and shown as itself when it comes back, both as far as host
text can have it. -/
theorem argument_echoed (config : Config) (s : String) (hnul : '\x00' ∉ s.toList) (hempty : s ≠ "")
    (hnull : s ≠ "null") (hnumber : Decimal.parse? s.toList = none) :
    ∃ c bytes, Parameter.ofValue config (argument config.charset s) = .ok c ∧
      c.bound = .text (Utf8.encode (hosted config.charset s.toList)) ∧
      (∀ w : List Warning,
        (QueryResult.ofCell config (c.bound.toHost config.charset)).runWith w = (.ok (.text bytes), w)) ∧
      Render.hostText config.charset bytes = String.ofList (hosted config.charset s.toList) := by
  have hsome : s.toList ≠ [] := fun h => hempty (String.toList_eq_nil_iff.mp h)
  refine ⟨.text (config.charset.toEngine (hostBytes config.charset s.toList)), hostBytes config.charset s.toList,
    ?_, ?_, returned_hostBytes config hnul, hostText_hostBytes config.charset s.toList⟩
  · rw [argument_eq_text hempty hnull hnumber]
    exact Parameter.ofValue_text (hostBytes_ne_nil hsome)
  · exact congrArg Cell.text (toEngine_hostBytes hnul)

/-- Characters on both sides of the last one with a single byte. -/
theorem argument_echoed_mixed :
    ∃ c bytes, Parameter.ofValue {} (argument .convert "é€ÿĀ") = .ok c ∧
      c.bound = .text [195, 169, 63, 195, 191, 63] ∧
      (QueryResult.ofCell {} (c.bound.toHost .convert)).runWith [] = (.ok (.text bytes), []) ∧
      Render.hostText .convert bytes = "é?ÿ?" := by
  obtain ⟨c, bytes, hvalue, hbound, hback, hshown⟩ :=
    argument_echoed {} "é€ÿĀ" (by decide) (by decide) (by decide) (by decide)
  exact ⟨c, bytes, hvalue, hbound, hback [], hshown⟩

end ArrayBridge.Command
