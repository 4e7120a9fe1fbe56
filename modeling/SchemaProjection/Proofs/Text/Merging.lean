import SchemaProjection.Proofs.Text.Casing

/-!
# What camel case merges

A capital that follows a capital starts a word only if a lower-case letter comes next. So two words
that do not stay apart (`Words.Apart`) are read back from camel case as one, and since the capitals
that decide this are those of the two words alone, the words read back are found by looking at
neighbours (`Words.merged`). This is the exact image of the way there and back
(`Casing.snake_camel_merged`), which is the identity where there is nothing to merge and nowhere
else (`Casing.snake_camel_eq_self_iff`).
-/

namespace SchemaProjection

namespace Words

variable {c first : Char} {v w word rest : List Char} {ws : List (List Char)}

/-! ### A capital behind a capital -/

instance : DecidableRel Apart := fun before behind =>
  decidable_of_iff (2 ≤ before.length ∨ behind[1]?.any Char.isLower)
    (or_congr_right (Option.any_eq_true _ _))

theorem isLower_capital (h : c.isLower) : isLower c.toUpper = false ∧ c.toUpper.isDigit = false :=
  of_isLower (P := fun c => isLower c.toUpper = false ∧ c.toUpper.isDigit = false)
    (by decide +kernel) h

theorem isLower_of_not_letter (h : isPlain c) (hletter : ¬c.isLower) : isLower c = false :=
  of_isPlain (P := fun c => ¬c.isLower → isLower c = false) (by decide +kernel) h hletter

theorem SnakeWord.capitalize_eq (hw : SnakeWord w) : ∃ first rest, w = first :: rest ∧
    first.isLower ∧ (∀ c ∈ rest, Words.isPlain c) ∧ capitalize w = first.toUpper :: rest := by
  have hplain := hw.isPlain
  obtain ⟨letter, -⟩ := hw
  have hrest := (List.forall_mem_cons.mp hplain).2
  exact ⟨_, _, rfl, letter, hrest, capitalize_cons letter hrest⟩

/-- A capitalised word begins with no lower-case character. -/
theorem head?_capitals (hws : ∀ w ∈ ws, SnakeWord w) :
    ∀ d ∈ (ws.flatMap capitalize).head?, isLower d = false := by
  cases ws with
  | nil => exact fun _ hd => nomatch hd
  | cons w ws =>
    obtain ⟨first, rest, -, letter, -, heq⟩ := (hws w List.mem_cons_self).capitalize_eq
    intro d hd
    rw [List.flatMap_cons, heq] at hd
    cases hd
    exact (isLower_capital letter).1

/-- Without a letter in the second place, no lower-case character follows the capital of a word. -/
theorem head?_behind_capital (hrest : ∀ c ∈ rest, Words.isPlain c) (hws : ∀ w ∈ ws, SnakeWord w)
    (hletter : ¬∃ c ∈ (first :: rest)[1]?, c.isLower) :
    ∀ d ∈ (rest ++ ws.flatMap capitalize).head?, isLower d = false := by
  cases rest with
  | nil => exact head?_capitals hws
  | cons e rest =>
    intro d hd
    cases hd
    exact isLower_of_not_letter (hrest e List.mem_cons_self) fun he => hletter ⟨e, rfl, he⟩

/-- A capital behind a capital goes on with the word in progress, if no lower-case character
follows. -/
theorem splitFrom_capital (hc : c.isLower) (letter : first.isLower)
    (hnext : ∀ d ∈ rest.head?, isLower d = false) :
    splitFrom (c.toUpper :: word) (first.toUpper :: rest) =
      splitFrom (first.toUpper :: c.toUpper :: word) rest := by
  have hany : rest.head?.any isLower = false := by
    cases rest with
    | nil => rfl
    | cons d rest => exact hnext d rfl
  have hstarts : startsWord c.toUpper first.toUpper rest.head? = false := by
    rw [startsWord, (isLower_capital hc).1, (isLower_capital hc).2, hany, Bool.and_false,
      Bool.or_false, Bool.or_false, Bool.and_false]
  rw [splitFrom, isSeparator_capital letter, hstarts, if_neg Bool.false_ne_true,
    if_neg Bool.false_ne_true]

/-- **Words that do not stay apart are read as one.** -/
theorem splitFrom_not_apart (hw : SnakeWord w) (hv : SnakeWord v) (hws : ∀ u ∈ ws, SnakeWord u)
    (hapart : ¬Apart w v) :
    splitFrom ((capitalize w).reverse ++ word) (capitalize v ++ ws.flatMap capitalize) =
      splitFrom ((capitalize v).reverse ++ ((capitalize w).reverse ++ word))
        (ws.flatMap capitalize) := by
  obtain ⟨hlength, hletter⟩ := not_or.mp hapart
  obtain ⟨c, tail, rfl, hc, -, hcapital⟩ := hw.capitalize_eq
  obtain ⟨first, rest, rfl, letter, hrest, heq⟩ := hv.capitalize_eq
  -- the word before is a single letter, so its capital is in progress
  obtain rfl : tail = [] := by
    rw [List.length_cons] at hlength
    exact List.eq_nil_of_length_eq_zero (by omega)
  rw [hcapital, heq, List.reverse_singleton, List.singleton_append, List.cons_append,
    splitFrom_capital hc letter (head?_behind_capital hrest hws hletter), splitFrom_plain hrest,
    List.reverse_cons, List.append_assoc, List.singleton_append]

/-- **Words that stay apart are read as two.** -/
theorem Breaks.splitFrom_capitalize (hbreaks : Breaks word v) (hv : SnakeWord v)
    (more : List Char) :
    Words.splitFrom word (capitalize v ++ more) =
      word.reverse :: Words.splitFrom (capitalize v).reverse more := by
  obtain ⟨first, rest, rfl, letter, hrest, heq⟩ := hv.capitalize_eq
  rw [heq, List.cons_append, hbreaks.splitFrom letter, splitFrom_plain hrest, List.reverse_cons]

theorem SnakeWord.breaks_capitalize (hw : SnakeWord w) (hapart : Apart w v) (before : List Char) :
    Breaks ((capitalize w).reverse ++ before) v := by
  obtain ⟨first, rest, rfl, letter, hrest, heq⟩ := hw.capitalize_eq
  obtain ⟨c, word, hword, hc⟩ := breaks_capitalized letter hrest hapart
  exact ⟨c, word ++ before, by rw [heq, List.reverse_cons, hword, List.cons_append], hc⟩

/-- A word that is not capitalised stays apart from each capital. -/
theorem SnakeWord.breaks (hw : SnakeWord w) : Breaks w.reverse v := by
  cases hlast : w.reverse with
  | nil => exact absurd hlast hw.reverse_ne_nil
  | cons c before =>
    have hmem : c ∈ w := List.mem_reverse.mp (hlast ▸ List.mem_cons_self)
    exact ⟨c, before, rfl, .inl (isLower_or_isDigit_plain (hw.isPlain c hmem))⟩

/-! ### The words that are read back -/

/-- **The words read back** from capitalised words: words that do not stay apart are one. -/
def merged : List (List Char) → List (List Char)
  | [] => []
  | [w] => [w]
  | w :: next :: ws =>
    if Apart w next then w :: merged (next :: ws) else (merged (next :: ws)).modifyHead (w ++ ·)

theorem SnakeWord.append (hv : SnakeWord v) (hw : SnakeWord w) : SnakeWord (v ++ w) := by
  have hplain := hw.isPlain
  obtain ⟨letter, hrest⟩ := hv
  refine .mk letter fun c hc => ?_
  exact (List.mem_append.mp hc).elim (hrest c) fun hc => Bool.or_eq_true_iff.mp (hplain c hc)

theorem merged_snake (hws : ∀ w ∈ ws, SnakeWord w) : ∀ w ∈ merged ws, SnakeWord w := by
  fun_induction merged ws with
  | case1 => exact hws
  | case2 w => exact hws
  | case3 w next ws hapart ih =>
    obtain ⟨hw, hws⟩ := List.forall_mem_cons.mp hws
    exact List.forall_mem_cons.mpr ⟨hw, ih hws⟩
  | case4 w next ws hapart ih =>
    obtain ⟨hw, hws⟩ := List.forall_mem_cons.mp hws
    have hmerged := ih hws
    cases hrest : merged (next :: ws) with
    | nil => exact fun _ h => nomatch h
    | cons v vs =>
      obtain ⟨hv, hvs⟩ := List.forall_mem_cons.mp (hrest ▸ hmerged)
      exact List.forall_mem_cons.mpr ⟨hw.append hv, hvs⟩

theorem length_merged_le : (merged ws).length ≤ ws.length := by
  fun_induction merged ws with
  | case1 => exact Nat.le_refl _
  | case2 w => exact Nat.le_refl _
  | case3 w next ws hapart ih => exact Nat.succ_le_succ ih
  | case4 w next ws hapart ih =>
    rw [List.length_modifyHead]
    exact Nat.le_succ_of_le ih

/-- **Nothing is merged** exactly where each word stays apart from the next one. -/
theorem merged_eq_self_iff : merged ws = ws ↔ ws.IsChain Apart := by
  fun_induction merged ws with
  | case1 => exact iff_of_true rfl .nil
  | case2 w => exact iff_of_true rfl (.singleton w)
  | case3 w next ws hapart ih =>
    rw [List.isChain_cons_cons, List.cons_inj_right, ih]
    exact (and_iff_right hapart).symm
  | case4 w next ws hapart ih =>
    refine iff_of_false (fun heq => ?_) fun hchain => hapart (List.isChain_cons_cons.mp hchain).1
    -- a merged word is one word less
    have hlength := congrArg List.length heq
    rw [List.length_modifyHead, List.length_cons (a := w)] at hlength
    exact absurd hlength (Nat.ne_of_lt (Nat.lt_succ_of_le length_merged_le))

theorem lower_append (hv : ∀ c ∈ v, c ≠ 'Σ') (hw : ∀ c ∈ w, c ≠ 'Σ') :
    lower (v ++ w) = lower v ++ lower w := by
  rw [lower_eq hv, lower_eq hw, ← List.flatMap_append]
  exact lower_eq fun c hc => (List.mem_append.mp hc).elim (hv c) (hw c)

theorem SnakeWord.capitalize_ne_sigma (hw : SnakeWord w) : ∀ c ∈ capitalize w, c ≠ 'Σ' := by
  obtain ⟨first, rest, -, letter, hrest, heq⟩ := hw.capitalize_eq
  rw [heq]
  exact List.forall_mem_cons.mpr
    ⟨ne_sigma_capital letter, fun c hc => ne_sigma_plain (hrest c hc)⟩

theorem lower_append_capitalize (hword : ∀ c ∈ word, c ≠ 'Σ') (hw : SnakeWord w) :
    lower ((capitalize w).reverse ++ word).reverse = lower word.reverse ++ w := by
  rw [List.reverse_append, List.reverse_reverse,
    lower_append (fun c hc => hword c (List.mem_reverse.mp hc)) hw.capitalize_ne_sigma,
    hw.lower_capitalize]

/-- **Reading capitalised words back**, from the end of the first of them. -/
theorem map_lower_splitFrom (word : List Char) (hword : ∀ c ∈ word, c ≠ 'Σ') (hw : SnakeWord w)
    (hws : ∀ u ∈ ws, SnakeWord u) :
    (splitFrom ((capitalize w).reverse ++ word) (ws.flatMap capitalize)).map lower =
      (merged (w :: ws)).modifyHead (lower word.reverse ++ ·) := by
  induction ws generalizing w word with
  | nil =>
    have hne : (capitalize w).reverse ++ word ≠ [] := by
      obtain ⟨first, rest, -, -, -, heq⟩ := hw.capitalize_eq
      rw [heq, List.reverse_cons, List.append_assoc]
      exact List.append_ne_nil_of_right_ne_nil _ (List.cons_ne_nil _ _)
    rw [List.flatMap_nil, splitFrom_end hne, List.map_singleton, lower_append_capitalize hword hw]
    rfl
  | cons next ws ih =>
    obtain ⟨hnext, hws⟩ := List.forall_mem_cons.mp hws
    rw [List.flatMap_cons, merged]
    split_ifs with hapart
    · have hrest := ih [] (fun _ h => nomatch h) hnext hws
      rw [List.append_nil] at hrest
      rw [(hw.breaks_capitalize hapart word).splitFrom_capitalize hnext, List.map_cons, hrest,
        lower_append_capitalize hword hw, List.modifyHead_cons]
      cases merged (next :: ws) <;> rfl
    · have hprogress : ∀ c ∈ (capitalize w).reverse ++ word, c ≠ 'Σ' := fun c hc =>
        (List.mem_append.mp hc).elim (fun h => hw.capitalize_ne_sigma c (List.mem_reverse.mp h))
          (hword c)
      rw [splitFrom_not_apart hw hnext hws hapart, ih _ hprogress hnext hws,
        lower_append_capitalize hword hw, List.modifyHead_modifyHead]
      refine congrArg (List.modifyHead · (merged (next :: ws))) (funext fun v => ?_)
      exact List.append_assoc _ _ _

/-- **What splitting a camel-case name gives**, in lower case: the first word stays apart. -/
theorem map_lower_split_camel (hw : SnakeWord w) (hws : ∀ u ∈ ws, SnakeWord u) :
    (split (w ++ ws.flatMap capitalize)).map lower = w :: merged ws := by
  rw [split, hw.splitFrom]
  cases ws with
  | nil =>
    rw [List.flatMap_nil, splitFrom_end hw.reverse_ne_nil, List.map_singleton,
      List.reverse_reverse, hw.lower]
    rfl
  | cons v ws =>
    obtain ⟨hv, hws⟩ := List.forall_mem_cons.mp hws
    have hrest := map_lower_splitFrom [] (List.forall_mem_nil _) hv hws
    rw [List.append_nil] at hrest
    rw [List.flatMap_cons, hw.breaks.splitFrom_capitalize hv, List.map_cons, hrest,
      List.reverse_reverse, hw.lower]
    cases merged (v :: ws) <;> rfl

theorem snakeName_inj {words words' : List (List Char)} (h : ∀ w ∈ words, SnakeWord w)
    (h' : ∀ w ∈ words', SnakeWord w) : snakeName words = snakeName words' ↔ words = words' := by
  refine ⟨fun heq => ?_, congrArg snakeName⟩
  have hjoined := congrArg String.toList heq
  rw [snakeName, snakeName, String.toList_ofList, String.toList_ofList] at hjoined
  rw [← split_snake h, hjoined, split_snake h']

end Words

namespace Casing

open Words

variable {w : List Char} {ws words : List (List Char)}

/-- **From snake case to camel case and back**: words behind the first one that do not stay apart
are merged. -/
theorem snake_camel_merged (hw : SnakeWord w) (hws : ∀ u ∈ ws, SnakeWord u) :
    snake.apply (camel.apply (snakeName (w :: ws))) = snakeName (w :: merged ws) := by
  rw [apply, apply, snakeName, String.toList_ofList, String.toList_ofList,
    split_snake (List.forall_mem_cons.mpr ⟨hw, hws⟩), join, hw.lower, join,
    map_lower_split_camel hw hws, snakeName]

/-- **A snake name survives camel case** exactly where each word behind the first one stays apart
from the next one. -/
theorem snake_camel_eq_self_iff (hwords : ∀ w ∈ words, SnakeWord w) :
    snake.apply (camel.apply (snakeName words)) = snakeName words ↔
      words.tail.IsChain fun before behind =>
        2 ≤ before.length ∨ ∃ c ∈ behind[1]?, c.isLower := by
  cases words with
  | nil => exact iff_of_true rfl .nil
  | cons w ws =>
    obtain ⟨hw, hws⟩ := List.forall_mem_cons.mp hwords
    have hmerged := List.forall_mem_cons.mpr ⟨hw, merged_snake hws⟩
    rw [snake_camel_merged hw hws, snakeName_inj hmerged hwords, List.cons_inj_right]
    exact merged_eq_self_iff

/-- The words of `get_a_bc` stay apart in `getABc`; those of `get_a_b2` do not in `getAB2`. -/
theorem snake_camel_single_letters :
    snake.apply (camel.apply (snakeName [['g', 'e', 't'], ['a'], ['b', 'c']])) =
        snakeName [['g', 'e', 't'], ['a'], ['b', 'c']] ∧
      snake.apply (camel.apply (snakeName [['g', 'e', 't'], ['a'], ['b', '2']])) ≠
        snakeName [['g', 'e', 't'], ['a'], ['b', '2']] := by
  have hwords : ∀ c : Char, c.isLower ∨ c.isDigit →
      ∀ w ∈ [['g', 'e', 't'], ['a'], ['b', c]], SnakeWord w := fun c hc =>
    List.forall_mem_cons.mpr ⟨.mk (by decide) (by simp), List.forall_mem_cons.mpr
      ⟨.mk (by decide) (by simp), List.forall_mem_singleton.mpr
        (.mk (by decide) (List.forall_mem_singleton.mpr hc))⟩⟩
  refine ⟨(snake_camel_eq_self_iff (hwords 'c' (by decide))).mpr (by simp), fun heq => ?_⟩
  exact absurd ((snake_camel_eq_self_iff (hwords '2' (by decide))).mp heq) (by simp)

end Casing

end SchemaProjection
