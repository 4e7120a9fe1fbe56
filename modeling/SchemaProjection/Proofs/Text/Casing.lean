import Mathlib.Data.List.Chain
import SchemaProjection.Proofs.Text.Splitting

/-!
# Snake case, camel case and back

The words of a snake name come from a small alphabet (`Words.SnakeWord`), and splitting the name
gives them back. In camel case only capitals keep the words apart. A capital after a lower-case
letter or a digit starts a word, so the first two words always stay apart; a capital after a capital
does so only if a lower-case letter follows. Hence a word of one letter must not be followed by a
word that has no letter in the second place (`Words.Apart`), and this is all that can go wrong
(`Words.split_camel`).

For such names camel case is undone by snake case (`Casing.snake_camel`).
-/

namespace SchemaProjection

namespace Words

/-! ### Characters -/

/-- What holds of all ASCII characters can be checked one by one. -/
theorem forall_ascii {P : Char → Prop} (h : ∀ n < 128, P (Char.ofNat n)) {c : Char}
    (hc : c.toNat < 128) : P c :=
  Char.ofNat_toNat c ▸ h c.toNat hc

/-- The characters of snake words. -/
def isPlain (c : Char) : Bool := c.isLower || c.isDigit

variable {c d : Char}

theorem toNat_lt_of_isPlain (h : isPlain c) : c.toNat < 128 := by
  rcases Bool.or_eq_true_iff.mp h with hlower | hdigit
  · have hle : c.toNat ≤ 122 := (Bool.and_eq_true_iff.mp hlower).2 |> of_decide_eq_true
    omega
  · have hle : c.toNat ≤ 57 := (Bool.and_eq_true_iff.mp hdigit).2 |> of_decide_eq_true
    omega

theorem of_isPlain {P : Char → Prop} (h : ∀ n < 128, isPlain (Char.ofNat n) → P (Char.ofNat n))
    (hc : isPlain c) : P c :=
  forall_ascii (P := fun c => isPlain c → P c) h (toNat_lt_of_isPlain hc) hc

/-- The characters of snake words neither separate words nor start one, and are in lower case. -/
theorem plain_spec : isPlain c → isSeparator c = false ∧ isUpper c = false ∧
    (isLower c || c.isDigit) = true ∧ CaseMapping.lower c = [c] ∧ c ≠ 'Σ' :=
  of_isPlain (P := fun c => isSeparator c = false ∧ isUpper c = false ∧
    (isLower c || c.isDigit) = true ∧ CaseMapping.lower c = [c] ∧ c ≠ 'Σ') (by decide +kernel)

theorem isSeparator_plain (h : isPlain c) : isSeparator c = false := (plain_spec h).1

theorem isUpper_plain (h : isPlain c) : isUpper c = false := (plain_spec h).2.1

theorem isLower_or_isDigit_plain (h : isPlain c) : (isLower c || c.isDigit) = true :=
  (plain_spec h).2.2.1

theorem lower_plain (h : isPlain c) : CaseMapping.lower c = [c] := (plain_spec h).2.2.2.1

theorem ne_sigma_plain (h : isPlain c) : c ≠ 'Σ' := (plain_spec h).2.2.2.2

theorem isPlain_of_isLower (h : c.isLower) : isPlain c := Bool.or_eq_true_iff.mpr (.inl h)

theorem of_isLower {P : Char → Prop} (h : ∀ n < 128, (Char.ofNat n).isLower → P (Char.ofNat n))
    (hc : c.isLower) : P c :=
  forall_ascii (P := fun c => c.isLower → P c) h (toNat_lt_of_isPlain (isPlain_of_isLower hc)) hc

/-- The capital of a lower-case letter is its upper case, starts a word, and is undone by lower
case. -/
theorem capital_spec : c.isLower → CaseMapping.upper c = [c.toUpper] ∧
    CaseMapping.lower c.toUpper = [c] ∧ isSeparator c.toUpper = false ∧
    isUpper c.toUpper = true ∧ c.toUpper ≠ 'Σ' ∧ isLower c = true :=
  of_isLower (P := fun c => CaseMapping.upper c = [c.toUpper] ∧
    CaseMapping.lower c.toUpper = [c] ∧ isSeparator c.toUpper = false ∧
    isUpper c.toUpper = true ∧ c.toUpper ≠ 'Σ' ∧ isLower c = true) (by decide +kernel)

theorem upper_letter (h : c.isLower) : CaseMapping.upper c = [c.toUpper] := (capital_spec h).1

theorem lower_capital (h : c.isLower) : CaseMapping.lower c.toUpper = [c] := (capital_spec h).2.1

theorem isSeparator_capital (h : c.isLower) : isSeparator c.toUpper = false :=
  (capital_spec h).2.2.1

theorem isUpper_capital (h : c.isLower) : isUpper c.toUpper = true := (capital_spec h).2.2.2.1

theorem ne_sigma_capital (h : c.isLower) : c.toUpper ≠ 'Σ' := (capital_spec h).2.2.2.2.1

theorem isLower_letter (h : c.isLower) : isLower c = true := (capital_spec h).2.2.2.2.2

/-! ### Words -/

/-- **The words of snake names**: a lower-case ASCII letter, and then such letters and digits. -/
inductive SnakeWord : List Char → Prop
  | mk {first : Char} {rest : List Char} (letter : first.isLower)
    (plain : ∀ c ∈ rest, c.isLower ∨ c.isDigit) : SnakeWord (first :: rest)

variable {w : List Char} {ws : List (List Char)}

theorem SnakeWord.isPlain (hw : SnakeWord w) : ∀ c ∈ w, isPlain c := by
  obtain ⟨letter, plain⟩ := hw
  exact List.forall_mem_cons.mpr
    ⟨isPlain_of_isLower letter, fun c hc => Bool.or_eq_true_iff.mpr (plain c hc)⟩

/-- Without a sigma a word is put in lower case letter by letter. -/
theorem lower_eq (h : ∀ c ∈ w, c ≠ 'Σ') : lower w = w.flatMap CaseMapping.lower := by
  have hfrom : ∀ before, lowerFrom before w = w.flatMap CaseMapping.lower := by
    induction w with
    | nil => exact fun _ => rfl
    | cons c rest ih =>
      obtain ⟨hc, hrest⟩ := List.forall_mem_cons.mp h
      intro before
      rw [lowerFrom, ih hrest, List.flatMap_cons]
      exact hc
  exact hfrom []

theorem flatMap_lower_plain (h : ∀ c ∈ w, Words.isPlain c) : w.flatMap CaseMapping.lower = w := by
  induction w with
  | nil => rfl
  | cons c rest ih =>
    obtain ⟨hc, hrest⟩ := List.forall_mem_cons.mp h
    rw [List.flatMap_cons, lower_plain hc, ih hrest, List.singleton_append]

theorem SnakeWord.lower (hw : SnakeWord w) : lower w = w := by
  rw [lower_eq fun c hc => ne_sigma_plain (hw.isPlain c hc), flatMap_lower_plain hw.isPlain]

theorem capitalize_cons {first : Char} {rest : List Char} (letter : first.isLower)
    (plain : ∀ c ∈ rest, Words.isPlain c) :
    capitalize (first :: rest) = first.toUpper :: rest := by
  rw [capitalize, upper_letter letter, flatMap_lower_plain plain, List.singleton_append]

/-- Lower case takes a capital away again. -/
theorem SnakeWord.lower_capitalize (hw : SnakeWord w) : Words.lower (capitalize w) = w := by
  have hplain := hw.isPlain
  obtain ⟨letter, -⟩ := hw
  have hrest := (List.forall_mem_cons.mp hplain).2
  rw [capitalize_cons letter hrest, lower_eq, List.flatMap_cons, lower_capital letter,
    flatMap_lower_plain hrest, List.singleton_append]
  exact List.forall_mem_cons.mpr
    ⟨ne_sigma_capital letter, fun c hc => ne_sigma_plain (hrest c hc)⟩

/-! ### Splitting -/

theorem isSettled_plain (h : isPlain c) : isSettled c :=
  isSettled_iff.mpr ⟨isSeparator_plain h, isUpper_plain h⟩

/-- Characters of snake words go on with the word in progress. -/
theorem splitFrom_plain {word ds : List Char} (hds : ∀ d ∈ ds, Words.isPlain d) (more : List Char) :
    splitFrom (c :: word) (ds ++ more) = splitFrom (ds.reverse ++ c :: word) more :=
  splitFrom_settled (fun d hd => isSettled_plain (hds d hd)) (c :: word) more

variable {word : List Char}

theorem splitFrom_end (hword : word ≠ []) : splitFrom word [] = [word.reverse] := by
  cases word with
  | nil => exact absurd rfl hword
  | cons c word => rfl

/-- A snake word is read to its end. -/
theorem SnakeWord.splitFrom (hw : SnakeWord w) (more : List Char) :
    Words.splitFrom [] (w ++ more) = Words.splitFrom w.reverse more := by
  rw [splitFrom_settled (fun c hc => isSettled_plain (hw.isPlain c hc)), List.append_nil]

theorem SnakeWord.reverse_ne_nil (hw : SnakeWord w) : w.reverse ≠ [] := by
  obtain ⟨letter, -⟩ := hw
  exact mt List.reverse_eq_nil_iff.mp (List.cons_ne_nil _ _)

/-- **Splitting a snake name gives its words.** -/
theorem split_snake (hws : ∀ w ∈ ws, SnakeWord w) : split (Casing.joinWith '_' ws) = ws := by
  refine split_joinWith (by decide) fun w hw => ?_
  have hsnake := hws w hw
  exact ⟨mt List.reverse_eq_nil_iff.mpr hsnake.reverse_ne_nil,
    fun c hc => isSettled_plain (hsnake.isPlain c hc)⟩

/-! ### Capitals -/

/-- **Two words stay apart** behind the first one of a camel-case name: the one before is no single
letter, or the one behind goes on with a letter. -/
def Apart (before behind : List Char) : Prop :=
  2 ≤ before.length ∨ ∃ c ∈ behind[1]?, c.isLower

/-- A capital starts a word behind a word in progress, given with its last character first. -/
def Breaks (word behind : List Char) : Prop :=
  ∃ c before, word = c :: before ∧
    ((isLower c || c.isDigit) = true ∨ isUpper c = true ∧ ∃ d ∈ behind[1]?, d.isLower)

theorem Breaks.splitFrom {first : Char} {rest : List Char} (hbreaks : Breaks word (first :: rest))
    (letter : first.isLower) (more : List Char) :
    Words.splitFrom word (first.toUpper :: (rest ++ more)) =
      word.reverse :: Words.splitFrom [first.toUpper] (rest ++ more) := by
  obtain ⟨c, before, rfl, hc⟩ := hbreaks
  have hstarts : startsWord c first.toUpper (rest ++ more).head? = true := by
    rw [startsWord, isUpper_capital letter, Bool.true_and]
    rcases hc with hplain | ⟨hupper, d, hd, hletter⟩
    · -- a capital behind no capital always does
      rw [hplain, Bool.true_or]
    · -- the letter behind the capital makes it the last one of its kind
      cases rest with
      | nil => cases hd
      | cons e rest =>
        cases hd
        rw [hupper, Bool.true_and, List.cons_append, List.head?_cons, Option.any_some,
          isLower_letter hletter, Bool.or_true]
  rw [Words.splitFrom, isSeparator_capital letter, if_neg Bool.false_ne_true, if_pos hstarts]

/-- A capitalised word in progress. -/
theorem breaks_capitalized {first : Char} {rest behind : List Char} (letter : first.isLower)
    (hrest : ∀ c ∈ rest, Words.isPlain c) (hapart : Apart (first :: rest) behind) :
    Breaks (rest.reverse ++ [first.toUpper]) behind := by
  cases hlast : rest.reverse with
  | nil =>
    refine ⟨first.toUpper, [], rfl, .inr ⟨isUpper_capital letter, ?_⟩⟩
    rcases hapart with hlength | hletter
    · rw [List.reverse_eq_nil_iff.mp hlast, List.length_singleton] at hlength
      exact absurd hlength (Nat.not_succ_le_self 1)
    · exact hletter
  | cons c before =>
    have hmem : c ∈ rest := List.mem_reverse.mp (hlast ▸ List.mem_cons_self)
    exact ⟨c, before ++ [first.toUpper], rfl, .inl (isLower_or_isDigit_plain (hrest c hmem))⟩

/-- **Capitalised words behind a word in progress** are told apart. -/
theorem splitFrom_capitals (hws : ∀ w ∈ ws, SnakeWord w) (hchain : ws.IsChain Apart)
    (hword : word ≠ []) (hfirst : ∀ w ∈ ws.head?, Breaks word w) :
    splitFrom word (ws.flatMap capitalize) = word.reverse :: ws.map capitalize := by
  induction ws generalizing word with
  | nil => exact splitFrom_end hword
  | cons w ws ih =>
    obtain ⟨hw, hrest⟩ := List.forall_mem_cons.mp hws
    have hbreaks := hfirst w rfl
    have hplain := hw.isPlain
    obtain ⟨letter, -⟩ := hw
    have htail := (List.forall_mem_cons.mp hplain).2
    -- the capital of `w` ends the word in progress, and `w` is in progress then
    rw [List.flatMap_cons, List.map_cons, capitalize_cons letter htail, List.cons_append,
      hbreaks.splitFrom letter, splitFrom_plain htail, ih hrest hchain.tail]
    · rw [List.reverse_append, List.reverse_reverse]
      rfl
    · exact List.append_ne_nil_of_right_ne_nil _ (List.cons_ne_nil _ _)
    · intro behind hbehind
      exact breaks_capitalized letter htail (hchain.rel_head? hbehind)

/-- **Splitting a camel-case name gives its words**, if they stay apart. -/
theorem split_camel (hw : SnakeWord w) (hws : ∀ w ∈ ws, SnakeWord w) (hchain : ws.IsChain Apart) :
    split (w ++ ws.flatMap capitalize) = w :: ws.map capitalize := by
  rw [split, hw.splitFrom, splitFrom_capitals hws hchain hw.reverse_ne_nil, List.reverse_reverse]
  intro behind _
  cases hlast : w.reverse with
  | nil => exact absurd hlast hw.reverse_ne_nil
  | cons c before =>
    have hmem : c ∈ w := List.mem_reverse.mp (hlast ▸ List.mem_cons_self)
    exact ⟨c, before, rfl, .inl (isLower_or_isDigit_plain (hw.isPlain c hmem))⟩

/-! ### Names -/

/-- The snake name of some words. -/
def snakeName (words : List (List Char)) : String := .ofList (Casing.joinWith '_' words)

/-- **Words that camel case keeps apart.** The first two of them always stay apart. -/
structure Recoverable (words : List (List Char)) : Prop where
  snake : ∀ w ∈ words, SnakeWord w
  apart : words.tail.IsChain Apart

end Words

namespace Casing

open Words

variable {words : List (List Char)}

theorem snake_snakeName (h : ∀ w ∈ words, SnakeWord w) :
    snake.apply (snakeName words) = snakeName words := by
  have hlower : words.map lower = words :=
    (List.map_congr_left fun w hw => (h w hw).lower).trans (List.map_id _)
  rw [apply, join, snakeName, String.toList_ofList, split_snake h, hlower]

/-- **Snake case undoes camel case.** -/
theorem snake_camel (h : Recoverable words) :
    snake.apply (camel.apply (snakeName words)) = snakeName words := by
  obtain ⟨hwords, hchain⟩ := h
  rw [apply, apply, join, snakeName, String.toList_ofList, String.toList_ofList,
    split_snake hwords]
  cases words with
  | nil => rfl
  | cons w ws =>
    obtain ⟨hw, hws⟩ := List.forall_mem_cons.mp hwords
    have hlower : (ws.map capitalize).map lower = ws := by
      rw [List.map_map]
      exact (List.map_congr_left fun w hw => (hws w hw).lower_capitalize).trans (List.map_id _)
    rw [join, hw.lower, split_camel hw hws hchain, List.map_cons, hw.lower, hlower]

end Casing

end SchemaProjection
