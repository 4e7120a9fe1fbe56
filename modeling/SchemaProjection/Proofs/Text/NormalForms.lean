import SchemaProjection.Proofs.Text.Casing

/-!
# Snake case and kebab case are normal forms

Writing an ASCII name in snake case or kebab case keeps its words but for their capitals: the words
in lower case are split again (`Words.split_joinWith_lower`), since no letter in them starts a word.
No casing looks at the capitals of a word, in the sense that it writes the word in lower case in the
same way. So each of the two forms has all that a casing reads of a name
(`Casing.apply_joinWith_lower`).

Outside ASCII this fails for single characters: some upper-case letters have no lower case, and some
lower cases are of several characters.
-/

namespace SchemaProjection

namespace Words

variable {c : Char} {w : List Char}

/-- A text of ASCII characters. -/
def IsAscii (text : List Char) : Prop := ∀ c ∈ text, c.toNat < 128

/-- **ASCII characters in lower case** are still of one character, separate words if they did, and
have no capitals. Casings write them as before. -/
theorem lower_ascii_spec (h : c.toNat < 128) : CaseMapping.lower c = [c.toLower] ∧
    isSeparator c.toLower = isSeparator c ∧ isUpper c.toLower = false ∧
    CaseMapping.lower c.toLower = [c.toLower] ∧ CaseMapping.upper c.toLower = CaseMapping.upper c ∧
    c ≠ 'Σ' ∧ c.toLower ≠ 'Σ' :=
  forall_ascii (P := fun c => CaseMapping.lower c = [c.toLower] ∧
    isSeparator c.toLower = isSeparator c ∧ isUpper c.toLower = false ∧
    CaseMapping.lower c.toLower = [c.toLower] ∧
    CaseMapping.upper c.toLower = CaseMapping.upper c ∧ c ≠ 'Σ' ∧ c.toLower ≠ 'Σ')
    (by decide +kernel) h

theorem flatMap_lower_ascii (hw : IsAscii w) :
    w.flatMap CaseMapping.lower = w.map Char.toLower := by
  induction w with
  | nil => rfl
  | cons c w ih =>
    obtain ⟨hc, hw⟩ := List.forall_mem_cons.mp hw
    rw [List.flatMap_cons, (lower_ascii_spec hc).1, ih hw, List.map_cons, List.singleton_append]

/-- An ASCII word is put in lower case letter by letter. -/
theorem lower_ascii (hw : IsAscii w) : lower w = w.map Char.toLower := by
  rw [lower_eq fun c hc => (lower_ascii_spec (hw c hc)).2.2.2.2.2.1, flatMap_lower_ascii hw]

theorem flatMap_lower_toLower (hw : IsAscii w) :
    (w.map Char.toLower).flatMap CaseMapping.lower = w.map Char.toLower := by
  induction w with
  | nil => rfl
  | cons c w ih =>
    obtain ⟨hc, hw⟩ := List.forall_mem_cons.mp hw
    rw [List.map_cons, List.flatMap_cons, (lower_ascii_spec hc).2.2.2.1, ih hw,
      List.singleton_append]

/-- Lower case does not look at the capitals of a word. -/
theorem lower_lower (hw : IsAscii w) : lower (lower w) = lower w := by
  have hsigma : ∀ c ∈ w.map Char.toLower, c ≠ 'Σ' := by
    intro c hc
    obtain ⟨d, hd, rfl⟩ := List.mem_map.mp hc
    exact (lower_ascii_spec (hw d hd)).2.2.2.2.2.2
  rw [lower_ascii hw, lower_eq hsigma, flatMap_lower_toLower hw]

/-- Neither does capitalising it. -/
theorem capitalize_lower (hw : IsAscii w) : capitalize (lower w) = capitalize w := by
  rw [lower_ascii hw]
  cases w with
  | nil => rfl
  | cons c w =>
    obtain ⟨hc, hw⟩ := List.forall_mem_cons.mp hw
    rw [List.map_cons, capitalize, capitalize, (lower_ascii_spec hc).2.2.2.2.1,
      flatMap_lower_toLower hw, flatMap_lower_ascii hw]

/-- No letter of a word in lower case starts a word. -/
theorem isSettled_lower (hw : IsAscii w) (hletters : ∀ c ∈ w, isSeparator c = false) :
    ∀ c ∈ lower w, isSettled c := by
  intro c hc
  rw [lower_ascii hw] at hc
  obtain ⟨d, hd, rfl⟩ := List.mem_map.mp hc
  obtain ⟨-, hseparator, hupper, -⟩ := lower_ascii_spec (hw d hd)
  exact isSettled_iff.mpr ⟨hseparator.trans (hletters d hd), hupper⟩

theorem lower_ne_nil (hw : IsAscii w) (hne : w ≠ []) : lower w ≠ [] := by
  rw [lower_ascii hw]
  exact mt List.map_eq_nil_iff.mp hne

/-- The words of an ASCII text are ASCII. -/
theorem isAscii_of_mem_split {text : List Char} (htext : IsAscii text) (hw : w ∈ split text) :
    IsAscii w := by
  intro c hc
  have hletter : c ∈ letters text := flatten_split text ▸ List.mem_flatten_of_mem hw hc
  exact htext c (List.mem_filter.mp hletter).1

/-- **The words of an ASCII text in lower case** are split again when they were joined. -/
theorem split_joinWith_lower {text : List Char} (htext : IsAscii text) {sep : Char}
    (hsep : isSeparator sep) :
    split (Casing.joinWith sep ((split text).map lower)) = (split text).map lower := by
  refine split_joinWith hsep fun w hw => ?_
  obtain ⟨v, hv, rfl⟩ := List.mem_map.mp hw
  have hascii := isAscii_of_mem_split htext hv
  exact ⟨lower_ne_nil hascii (ne_nil_of_mem_splitFrom hv),
    isSettled_lower hascii fun c hc => isSeparator_of_mem_split hv hc⟩

end Words

namespace Casing

open Words

variable {ws : List (List Char)}

/-- **No casing looks at the capitals of the words.** -/
theorem join_map_lower (hws : ∀ w ∈ ws, IsAscii w) (casing : Casing) :
    casing.join (ws.map lower) = casing.join ws := by
  have hcapitalize : ∀ {ws : List (List Char)}, (∀ w ∈ ws, IsAscii w) →
      (ws.map lower).flatMap capitalize = ws.flatMap capitalize := by
    intro ws hws
    rw [List.flatMap_map]
    exact List.flatMap_congr fun w hw => capitalize_lower (hws w hw)
  have hlower : (ws.map lower).map lower = ws.map lower := by
    rw [List.map_map]
    exact List.map_congr_left fun w hw => lower_lower (hws w hw)
  cases casing with
  | camel =>
    cases ws with
    | nil => rfl
    | cons first rest =>
      obtain ⟨hfirst, hrest⟩ := List.forall_mem_cons.mp hws
      rw [List.map_cons, join, join, lower_lower hfirst, hcapitalize hrest]
  | pascal => exact hcapitalize hws
  | snake => rw [join, join, hlower]
  | kebab => rw [join, join, hlower]

/-- **A normal form** has the words of a name, in lower case, with a separator between them. -/
theorem apply_joinWith_lower {name : String} (hname : IsAscii name.toList) {sep : Char}
    (hsep : isSeparator sep) (casing : Casing) :
    casing.apply (String.ofList (joinWith sep ((split name.toList).map lower))) =
      casing.apply name := by
  have hws : ∀ w ∈ split name.toList, IsAscii w := fun w hw => isAscii_of_mem_split hname hw
  rw [apply, String.toList_ofList, split_joinWith_lower hname hsep, join_map_lower hws, apply]

/-- **Snake case and kebab case are normal forms.** A casing makes the same of an ASCII name in one
of the two as of the name itself. In particular each of them leaves its own results as they are. -/
theorem apply_normalForm {name : String} (hname : ∀ c ∈ name.toList, c.toNat < 128)
    (casing : Casing) :
    casing.apply (snake.apply name) = casing.apply name ∧
      casing.apply (kebab.apply name) = casing.apply name :=
  ⟨apply_joinWith_lower hname (by decide) casing, apply_joinWith_lower hname (by decide) casing⟩

/-- A name of acronyms, digits, separators in a row, and other characters. -/
theorem apply_normalForm_acronym :
    (∀ c ∈ "HTTPServer__v2.XMLid$".toList, c.toNat < 128) ∧
      snake.apply "HTTPServer__v2.XMLid$" = "http_server_v2_xm_lid$" ∧
      camel.apply "http_server_v2_xm_lid$" = camel.apply "HTTPServer__v2.XMLid$" ∧
      kebab.apply "http_server_v2_xm_lid$" = kebab.apply "HTTPServer__v2.XMLid$" := by
  have hall : ("HTTPServer__v2.XMLid$".toList.all fun c => c.toNat < 128) = true := by
    decide +kernel
  have hascii : ∀ c ∈ "HTTPServer__v2.XMLid$".toList, c.toNat < 128 := fun c hc =>
    of_decide_eq_true (List.all_eq_true.mp hall c hc)
  have hsnake : snake.apply "HTTPServer__v2.XMLid$" = "http_server_v2_xm_lid$" := by decide +kernel
  have hcamel := (apply_normalForm hascii camel).1
  have hkebab := (apply_normalForm hascii kebab).1
  rw [hsnake] at hcamel hkebab
  exact ⟨hascii, hsnake, hcamel, hkebab⟩

end Casing

end SchemaProjection
