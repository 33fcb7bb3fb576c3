import ArrayBridge.Proofs.Latin1
import ArrayBridge.Proofs.Pattern.Replacement
import ArrayBridge.Render.Text
import ArrayBridge.Sql.Function

/-!
Patterns see the characters that the host is shown, and the characters of their result come back.
-/
namespace ArrayBridge.Sql

/-- What a pattern is relied on for, whatever its engine: a match is a part of the text, and replacing takes no
character from elsewhere. -/
structure Matcher.Lawful (m : Matcher) : Prop where
  find_within : ∀ text found, m.find? text = some found → found <:+: text
  isMatch_iff : ∀ text, m.isMatch text = true ↔ ∃ found, m.find? text = some found
  mem_replaceAll : ∀ text replacement, ∀ c ∈ m.replaceAll text replacement, c ∈ text ∨ c ∈ replacement

theorem matcher_lawful {source : List Char} {m : Matcher} (h : matcher source = .ok m) : m.Lawful := by
  rw [matcher] at h
  split at h
  · cases h
  · cases h
  · next c _ =>
      cases h
      refine ⟨fun _ _ => Pattern.Compiled.find?_within, fun text => Option.isSome_iff_exists, ?_⟩
      exact fun _ _ _ => Pattern.Compiled.mem_replaceAll

/-- The characters on display for engine text that a query returns. -/
def Displayed (config : Config) (bytes : Bytes) (cs : List Char) : Prop :=
  ∃ host, (∀ w, (QueryResult.ofCell config ((Cell.text bytes).toHost config.charset)).runWith w = (.ok (.text host), w)) ∧
    Render.hostText config.charset host = String.ofList cs

/-- The result for the characters that a pattern gives. Converted, all of them are single bytes on the host, and they
end before a NUL. -/
inductive Answer : Charset → Option (List Char) → Cell → Prop
  | nothing (charset : Charset) : Answer charset none .null
  | converted {cs : List Char} {bytes : Bytes} : (∀ c ∈ cs, c.toNat ≤ 0xFF) →
      Utf8.decode? bytes = some (cs.takeWhile (· ≠ '\x00')) → Answer .convert (some cs) (.text bytes)
  | identity (cs : List Char) : Answer .identity (some cs) (.text (Utf8.encode cs))

variable {charset : Charset} {cs : List Char} {result : Option (List Char)} {answer : Cell}

theorem Answer.eq_null_iff (h : Answer charset result answer) : answer = .null ↔ result = none := by
  cases h with
  | nothing => exact iff_of_true rfl rfl
  | converted | identity => exact iff_of_false nofun nofun

theorem hostText_toHost (charset : Charset) (bytes : Bytes) :
    Render.hostText charset (charset.toHost bytes) = String.ofList (decodeText charset bytes) := by
  cases charset <;> rfl

/-- The two decoders agree. -/
theorem displayed_iff {config : Config} {bytes : Bytes} :
    Displayed config bytes cs ↔ cs = decodeText config.charset bytes := by
  refine ⟨?_, ?_⟩
  · rintro ⟨host, hreturned, hshown⟩
    have hhost : config.charset.toHost bytes = host :=
      HostValue.text.inj (Except.ok.inj (congrArg Prod.fst (hreturned [])))
    rw [← hhost, hostText_toHost] at hshown
    exact (String.ofList_injective hshown).symm
  · rintro rfl
    exact ⟨config.charset.toHost bytes, fun _ => rfl, hostText_toHost _ _⟩

theorem single_of_mem_decodeText {bytes : Bytes} {c : Char} (h : c ∈ decodeText .convert bytes) : c.toNat ≤ 0xFF := by
  obtain ⟨b, -, rfl⟩ := List.mem_map.mp h
  rw [toNat_ofNat_toNat]
  exact Nat.le_of_lt_succ b.toNat_lt

theorem encodeText_convert (h : ∀ c ∈ cs, c.toNat ≤ 0xFF) :
    encodeText .convert cs = Utf8.encode (cs.takeWhile (· ≠ '\x00')) := by
  have hsingle : ∀ c ∈ cs.takeWhile (· ≠ '\x00'), c.toNat ≤ 0xFF := fun c hc => h c (List.takeWhile_subset _ hc)
  rw [encodeText, Charset.toEngine, Charset.toUtf8, ← Charset.encode_latin1, Utf8.decodeLossy_encode,
    untilNul_latin1Bytes, latin1_latin1Bytes_of_single hsingle]

theorem answer_encodeText (charset : Charset) (h : charset = .convert → ∀ c ∈ cs, c.toNat ≤ 0xFF) :
    Answer charset (some cs) (.text (encodeText charset cs)) := by
  cases charset with
  | convert =>
      refine .converted (h rfl) ?_
      rw [encodeText_convert (h rfl)]
      exact Utf8.decode?_eq_some_iff.mpr rfl
  | identity => exact .identity cs

namespace Matcher.Lawful

variable {m : Matcher} {text : List Char} {replacement : Option (List Char)} {c : Char}

theorem mem_apply (hm : m.Lawful) (h : m.apply text replacement = some cs) (hc : c ∈ cs) :
    c ∈ text ∨ ∃ r, replacement = some r ∧ c ∈ r := by
  cases replacement with
  | none => exact .inl ((hm.find_within text cs h).mem hc)
  | some r =>
      rw [apply] at h
      split at h
      · cases h
        exact (hm.mem_replaceAll text r c hc).imp_right fun hr => ⟨r, rfl, hr⟩
      · cases h

/-- Nothing is found where nothing is replaced. -/
theorem apply_eq_none_iff (hm : m.Lawful) (r : List Char) :
    m.apply text none = none ↔ m.apply text (some r) = none := by
  have hmatch := hm.isMatch_iff text
  cases hfind : m.find? text with
  | none =>
      have hnot : ¬m.isMatch text = true := fun hyes => by
        obtain ⟨found, hfound⟩ := hmatch.mp hyes
        cases hfind.symm.trans hfound
      exact iff_of_true hfind (if_neg hnot)
  | some found =>
      have hyes := hmatch.mpr ⟨found, hfind⟩
      refine iff_of_false ?_ ?_
      · rw [apply, hfind]
        exact nofun
      · rw [apply, if_pos hyes]
        exact nofun

end Matcher.Lawful

variable {matchers : Matchers} {m : Matcher} {text pattern : Cell} {t p : Bytes} (replacement : Option Cell)
  (r : Option Bytes)

theorem regexWith_eq (charset : Charset) (ht : textOf text = some t) (hp : textOf pattern = some p)
    (hr : replacement.map textOf = r.map some) (hm : matchers (decodeText charset p) = .ok m) :
    regexWith matchers charset text pattern replacement =
      (m.apply (decodeText charset t) (r.map (decodeText charset))).elim (.ok .null) fun cs =>
        .ok (.text (encodeText charset cs)) := by
  rw [regexWith, ht, hp, hr]
  cases r with
  | none =>
      simp only [Option.map_none, hm, Option.join_none]
      cases m.apply (decodeText charset t) none <;> rfl
  | some r =>
      simp only [Option.map_some, hm, Option.join_some]
      cases m.apply (decodeText charset t) (some (decodeText charset r)) <;> rfl

theorem regexWith_answers (hlawful : m.Lawful) (ht : textOf text = some t) (hp : textOf pattern = some p)
    (hr : replacement.map textOf = r.map some) (hm : matchers (decodeText charset p) = .ok m) :
    ∃ answer, regexWith matchers charset text pattern replacement = .ok answer ∧
      Answer charset (m.apply (decodeText charset t) (r.map (decodeText charset))) answer := by
  rw [regexWith_eq replacement r charset ht hp hr hm]
  cases happly : m.apply (decodeText charset t) (r.map (decodeText charset)) with
  | none => exact ⟨.null, rfl, .nothing charset⟩
  | some cs =>
      refine ⟨_, rfl, answer_encodeText charset ?_⟩
      rintro rfl c hc
      rcases hlawful.mem_apply happly hc with htext | ⟨_, hreplacement, hmem⟩
      · exact single_of_mem_decodeText htext
      · obtain ⟨bytes, -, rfl⟩ := Option.map_eq_some_iff.mp hreplacement
        exact single_of_mem_decodeText hmem

/-- A pattern is made of the characters on display for its source and looks at those on display for the text, and what
it gives comes back: its characters before a NUL where text is converted, and all of them where it is not. Nothing
is found exactly where nothing is replaced. -/
theorem regexWith_exact (matchers : Matchers) (hlawful : ∀ source m, matchers source = .ok m → m.Lawful)
    (config : Config) (text pattern : Cell) {t p : Bytes} (ht : textOf text = some t) (hp : textOf pattern = some p) :
    ∃ subject source, Displayed config t subject ∧ Displayed config p source ∧
      ∀ m, matchers source = .ok m →
        (∃ answer, regexWith matchers config.charset text pattern none = .ok answer ∧
          Answer config.charset (m.find? subject) answer) ∧
        ∀ replacement r, textOf replacement = some r → ∃ template, Displayed config r template ∧
          (∃ answer, regexWith matchers config.charset text pattern (some replacement) = .ok answer ∧
            Answer config.charset (if m.isMatch subject then some (m.replaceAll subject template) else none) answer) ∧
          (regexWith matchers config.charset text pattern none = .ok .null ↔
            regexWith matchers config.charset text pattern (some replacement) = .ok .null) := by
  refine ⟨_, _, displayed_iff.mpr rfl, displayed_iff.mpr rfl, fun m hm => ?_⟩
  have hm' := hlawful _ m hm
  obtain ⟨found, hfound, hfind⟩ := regexWith_answers none none hm' ht hp rfl hm
  refine ⟨⟨found, hfound, hfind⟩, fun replacement r hr => ⟨_, displayed_iff.mpr rfl, ?_⟩⟩
  obtain ⟨replaced, hreplaced, hreplace⟩ := regexWith_answers (some replacement) (some r) hm' ht hp (congrArg some hr) hm
  refine ⟨⟨replaced, hreplaced, hreplace⟩, ?_⟩
  rw [hfound, hreplaced, Except.ok.injEq, Except.ok.injEq, hfind.eq_null_iff, hreplace.eq_null_iff]
  exact hm'.apply_eq_none_iff _

theorem matcher_accented :
    ∃ m, matcher ['é'] = .ok m ∧ m.find? ['é', 'b'] = some ['é'] ∧ m.replaceAll ['é', 'b'] ['ü'] = ['ü', 'b'] := by
  have hparse : ∃ p, Pattern.parse ['é'] = .ok p ∧ p.root.form.fits = true ∧
      Pattern.Program.ofForm p.root.form = ⟨1, #[.accept, .char (.single 'é') 0]⟩ :=
    ⟨_, rfl, by decide +kernel, by with_unfolding_all rfl⟩
  obtain ⟨p, hp, hfits, hprogram⟩ := hparse
  have hcompile : Pattern.compile ['é'] = .ok ⟨p, .ofForm p.root.form⟩ := by
    rw [Pattern.compile, hp]
    simp [Except.mapError, bind, Except.bind, pure, Except.pure, hfits]
  have he : (CharSet.single 'é').contains 'é' = true := by decide
  have hb : (CharSet.single 'é').contains 'b' = false := by decide
  have htemplate : Pattern.template ['ü'] = [.literal 'ü'] := by decide
  refine ⟨_, by rw [matcher, hcompile], ?_, ?_⟩
  · simp [Pattern.Compiled.find?, Pattern.findFrom, Pattern.findAt, Pattern.explore, Pattern.isAccept,
      Pattern.Thread.next, Pattern.Program.rounds, Pattern.Instr.width, Pattern.slice, hprogram, he]
  · simp [Pattern.Compiled.replaceAll, Pattern.Compiled.substitute, Pattern.Compiled.expandPiece, Pattern.allMatches,
      Pattern.matchesFrom, Pattern.findFrom, Pattern.findAt, Pattern.explore, Pattern.isAccept, Pattern.Thread.next,
      Pattern.Program.rounds, Pattern.Instr.width, Pattern.slice, hprogram, he, hb, htemplate]

/-- The pattern `é` where text is converted: its character is found in `éb`, and comes back as its two bytes or is
replaced. -/
theorem regexWith_exact_accented :
    ∃ found replaced,
      regexWith matcher .convert (.text [195, 169, 98]) (.text [195, 169]) none = .ok (.text found) ∧
        Utf8.decode? found = some ['é'] ∧
      regexWith matcher .convert (.text [195, 169, 98]) (.text [195, 169]) (some (.text [195, 188])) =
          .ok (.text replaced) ∧
        Utf8.decode? replaced = some ['ü', 'b'] := by
  obtain ⟨m, hm, hfind, hreplace⟩ := matcher_accented
  obtain ⟨subject, source, hsubject, hsource, hanswers⟩ :=
    regexWith_exact matcher (fun _ _ => matcher_lawful) {} (.text [195, 169, 98]) (.text [195, 169]) rfl rfl
  obtain rfl : subject = ['é', 'b'] := (displayed_iff.mp hsubject).trans (by decide)
  obtain rfl : source = ['é'] := (displayed_iff.mp hsource).trans (by decide)
  obtain ⟨⟨found, hfound, hfoundAnswer⟩, hthree⟩ := hanswers m hm
  obtain ⟨template, htemplate, ⟨replaced, hreplaced, hreplacedAnswer⟩, -⟩ := hthree (.text [195, 188]) _ rfl
  obtain rfl : template = ['ü'] := (displayed_iff.mp htemplate).trans (by decide)
  have hyes : m.isMatch ['é', 'b'] = true := ((matcher_lawful hm).isMatch_iff _).mpr ⟨_, hfind⟩
  rw [hfind] at hfoundAnswer
  rw [if_pos hyes, hreplace] at hreplacedAnswer
  cases hfoundAnswer with
  | converted _ hfoundText =>
      cases hreplacedAnswer with
      | converted _ hreplacedText => exact ⟨_, _, hfound, hfoundText, hreplaced, hreplacedText⟩

end ArrayBridge.Sql
