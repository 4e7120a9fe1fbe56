import SchemaProjection.Text.Words

/-!
# Where a text is split

Splitting a text loses its separators and nothing else: its words, one after the other, are the
**letters** of the text (`Words.letters`), in their order (`Words.flatten_split`). No word is empty.
So all there is to know is where the cuts are, that is, which letters belong to different words when
the letters are numbered through all words (`Words.wordOf`).

`Words.split_boundaries` answers this for neighbours. Two letters that stand side by side belong to
different words exactly when the second one starts a word, and separators always keep the letters
around them apart.

Splitting carries a word in progress. A text is split in two steps, up to some place and from there
on with what is in progress then (`Words.exists_splitFrom_append`), so what happens at a place can
be told from the three equations of `Words.splitFrom`, one for each kind of character.

The same equations show that words without upper-case letters survive being joined with a separator
and split again (`Words.split_joinWith`).
-/

namespace SchemaProjection.Words

variable {c d sep : Char} {text rest before more word w : List Char} {ws : List (List Char)}

/-! ### One character at a time -/

/-- The words that a word in progress becomes when it ends: itself, unless it has no letters. -/
def finished : List Char → List (List Char)
  | [] => []
  | c :: word => [(c :: word).reverse]

theorem flatten_finished (word : List Char) : (finished word).flatten = word.reverse := by
  cases word with
  | nil => rfl
  | cons c word => exact List.flatten_singleton

theorem splitFrom_nil (word : List Char) : splitFrom word [] = finished word := by
  cases word <;> rfl

/-- A separator ends the word in progress. -/
theorem splitFrom_of_isSeparator (h : isSeparator d) (word rest : List Char) :
    splitFrom word (d :: rest) = finished word ++ splitFrom [] rest := by
  cases word with
  | nil =>
    rw [splitFrom, if_pos h]
    rfl
  | cons c word =>
    rw [splitFrom, if_pos h]
    rfl

/-- A letter goes on with the word in progress, or ends it and starts another one. -/
theorem splitFrom_of_letter (h : isSeparator d = false) (word rest : List Char) :
    splitFrom word (d :: rest) =
      if word.head?.any (startsWord · d rest.head?) then finished word ++ splitFrom [d] rest
      else splitFrom (d :: word) rest := by
  have hno : ¬ (isSeparator d = true) := Bool.eq_false_iff.mp h
  cases word with
  | nil =>
    rw [splitFrom, if_neg hno]
    rfl
  | cons c word =>
    rw [splitFrom, if_neg hno]
    rfl

/-! ### Letters -/

/-- **The letters of a text**: all characters but the separators. -/
def letters (text : List Char) : List Char := text.filter fun c => !isSeparator c

theorem letters_of_isSeparator (h : isSeparator c) (text : List Char) :
    letters (c :: text) = letters text := by
  rw [letters, List.filter_cons_of_neg]
  · rfl
  · rw [h]
    decide

theorem letters_of_letter (h : isSeparator c = false) (text : List Char) :
    letters (c :: text) = c :: letters text := by
  rw [letters, List.filter_cons_of_pos]
  · rfl
  · rw [h]
    rfl

/-- **Splitting in two steps.** Up to some place words are completed, and another one is in progress
there. Together they hold the letters that have been read. -/
theorem exists_splitFrom_append (word before more : List Char) :
    ∃ completed current, splitFrom word (before ++ more) = completed ++ splitFrom current more ∧
      completed.flatten ++ current.reverse = word.reverse ++ letters before := by
  -- on the text before the place, for any word that is in progress at its beginning
  induction before generalizing word with
  | nil => exact ⟨[], word, rfl, (List.append_nil _).symm⟩
  | cons d before ih =>
    rw [List.cons_append]
    by_cases hd : isSeparator d
    · obtain ⟨completed, current, hsplit, hletters⟩ := ih []
      refine ⟨finished word ++ completed, current, ?_, ?_⟩
      · rw [splitFrom_of_isSeparator hd, hsplit, List.append_assoc]
      · rw [List.flatten_append, flatten_finished, List.append_assoc, hletters,
          letters_of_isSeparator hd]
        rfl
    · rw [Bool.not_eq_true] at hd
      rw [splitFrom_of_letter hd, letters_of_letter hd]
      split
      · obtain ⟨completed, current, hsplit, hletters⟩ := ih [d]
        refine ⟨finished word ++ completed, current, ?_, ?_⟩
        · rw [hsplit, List.append_assoc]
        · rw [List.flatten_append, flatten_finished, List.append_assoc, hletters]
          rfl
      · obtain ⟨completed, current, hsplit, hletters⟩ := ih (d :: word)
        refine ⟨completed, current, hsplit, ?_⟩
        rw [hletters, List.reverse_cons, List.append_assoc]
        rfl

/-- **Nothing but the separators is lost**, and the letters keep their order. -/
theorem flatten_split (text : List Char) : (split text).flatten = letters text := by
  obtain ⟨completed, current, hsplit, hletters⟩ := exists_splitFrom_append [] text []
  rw [List.append_nil, splitFrom_nil] at hsplit
  calc (split text).flatten
      = (completed ++ finished current).flatten := congrArg List.flatten hsplit
    _ = completed.flatten ++ current.reverse := by rw [List.flatten_append, flatten_finished]
    _ = letters text := hletters

/-- No word is empty. -/
theorem ne_nil_of_mem_splitFrom (h : w ∈ splitFrom word text) : w ≠ [] := by
  have hfinished : ∀ {word}, w ∈ finished word → w ≠ [] := by
    intro word hw
    cases word with
    | nil => cases hw
    | cons c word =>
      rw [List.mem_singleton.mp hw, List.reverse_cons]
      exact List.append_ne_nil_of_right_ne_nil _ (List.cons_ne_nil c [])
  induction text generalizing word with
  | nil => exact hfinished (splitFrom_nil word ▸ h)
  | cons d rest ih =>
    by_cases hd : isSeparator d
    · rw [splitFrom_of_isSeparator hd] at h
      exact (List.mem_append.mp h).elim hfinished ih
    · rw [splitFrom_of_letter (Bool.not_eq_true _ ▸ hd)] at h
      split at h
      · exact (List.mem_append.mp h).elim hfinished ih
      · exact ih h

/-- A word is made of letters. -/
theorem isSeparator_of_mem_split (hw : w ∈ split text) (hc : c ∈ w) : isSeparator c = false := by
  have hletter : c ∈ letters text := flatten_split text ▸ List.mem_flatten_of_mem hw hc
  simpa using (List.mem_filter.mp hletter).2

/-! ### The words of single letters -/

/-- **The word that a letter belongs to**, by its number. The letters are numbered through all
words. -/
def wordOf : List (List Char) → Nat → Nat
  | [], _ => 0
  | w :: ws, i => if i < w.length then 0 else wordOf ws (i - w.length) + 1

theorem wordOf_of_lt {i : Nat} (h : i < w.length) (ws : List (List Char)) :
    wordOf (w :: ws) i = 0 := if_pos h

/-- Behind the first words the letters are those of the others. -/
theorem wordOf_append (completed ws : List (List Char)) (i : Nat) :
    wordOf (completed ++ ws) (completed.flatten.length + i) = completed.length + wordOf ws i := by
  induction completed with
  | nil =>
    show wordOf ws (0 + i) = 0 + wordOf ws i
    rw [Nat.zero_add, Nat.zero_add]
  | cons w completed ih =>
    have hbehind : ¬ w.length + (completed.flatten.length + i) < w.length := by omega
    rw [List.cons_append, List.flatten_cons, List.length_append, Nat.add_assoc, wordOf,
      if_neg hbehind, Nat.add_sub_cancel_left, ih, List.length_cons]
    omega

theorem wordOf_append_ne_iff (completed ws : List (List Char)) (i j : Nat) :
    wordOf (completed ++ ws) (completed.flatten.length + i) ≠
        wordOf (completed ++ ws) (completed.flatten.length + j) ↔ wordOf ws i ≠ wordOf ws j := by
  rw [wordOf_append, wordOf_append]
  exact not_congr (Nat.add_left_cancel_iff (n := completed.length))

/-- The last letter of a word does not belong to the word behind it. -/
theorem wordOf_last_ne (c : Char) (word : List Char) (ws : List (List Char)) :
    wordOf ((c :: word).reverse :: ws) word.length ≠
      wordOf ((c :: word).reverse :: ws) (word.length + 1) := by
  have hlength : (c :: word).reverse.length = word.length + 1 := List.length_reverse
  have hnext : ¬ word.length + 1 < (c :: word).reverse.length := by omega
  rw [wordOf_of_lt (by omega), wordOf, if_neg hnext]
  exact (Nat.succ_ne_zero _).symm

/-- The word in progress becomes the first of the words that are still to come. -/
theorem exists_splitFrom_cons (c : Char) (word rest : List Char) :
    ∃ more ws, splitFrom (c :: word) rest = ((c :: word).reverse ++ more) :: ws := by
  induction rest generalizing c word with
  | nil => exact ⟨[], [], by rw [List.append_nil]; rfl⟩
  | cons d rest ih =>
    by_cases hd : isSeparator d
    · rw [splitFrom_of_isSeparator hd]
      exact ⟨[], _, by rw [List.append_nil]; rfl⟩
    · rw [splitFrom_of_letter (Bool.not_eq_true _ ▸ hd)]
      split
      · exact ⟨[], _, by rw [List.append_nil]; rfl⟩
      · obtain ⟨more, ws, hsplit⟩ := ih d (c :: word)
        refine ⟨d :: more, ws, ?_⟩
        rw [hsplit, List.reverse_cons (a := d), List.append_assoc]
        rfl

/-- Splitting up to a letter leaves a word in progress that ends with the letter. -/
theorem exists_split_letter (hc : isSeparator c = false) (before rest : List Char) :
    ∃ completed current, split (before ++ c :: rest) = completed ++ splitFrom (c :: current) rest ∧
      (letters before).length = completed.flatten.length + current.length := by
  obtain ⟨completed, current, hsplit, hletters⟩ := exists_splitFrom_append [] before (c :: rest)
  rw [splitFrom_of_letter hc] at hsplit
  have hlength := congrArg List.length hletters
  rw [List.reverse_nil, List.nil_append, List.length_append, List.length_reverse] at hlength
  split at hsplit
  · -- the letter starts a word of its own
    refine ⟨completed ++ finished current, [], ?_, ?_⟩
    · rw [List.append_assoc]
      exact hsplit
    · rw [List.flatten_append, flatten_finished, List.length_append, List.length_reverse, hlength]
      rfl
  · exact ⟨completed, current, hsplit, hlength.symm⟩

/-- **Neighbours**: a letter and the next one, side by side, belong to different words exactly when
the second one starts a word. -/
theorem wordOf_split_ne_iff (hc : isSeparator c = false) (hd : isSeparator d = false)
    (before rest : List Char) :
    wordOf (split (before ++ c :: d :: rest)) (letters before).length ≠
        wordOf (split (before ++ c :: d :: rest)) ((letters before).length + 1) ↔
      startsWord c d rest.head? = true := by
  obtain ⟨completed, current, hsplit, hlength⟩ := exists_split_letter hc before (d :: rest)
  rw [hsplit, hlength, Nat.add_assoc, wordOf_append_ne_iff, splitFrom_of_letter hd,
    List.head?_cons, Option.any_some]
  cases startsWord c d rest.head? with
  | true =>
    rw [if_pos rfl, finished, List.singleton_append]
    exact iff_of_true (wordOf_last_ne c current _) rfl
  | false =>
    -- both are letters of the word in progress
    refine iff_of_false (fun hne => hne ?_) Bool.false_ne_true
    obtain ⟨more, ws, hword⟩ := exists_splitFrom_cons d (c :: current) rest
    have hin : current.length + 1 < ((d :: c :: current).reverse ++ more).length := by
      rw [List.length_append, List.length_reverse, List.length_cons, List.length_cons]
      omega
    rw [if_neg Bool.false_ne_true, hword, wordOf_of_lt (Nat.lt_of_succ_lt hin), wordOf_of_lt hin]

/-- **Letters with separators between them** belong to different words. -/
theorem wordOf_split_separated (hc : isSeparator c = false) {seps : List Char} (hseps : seps ≠ [])
    (h : ∀ s ∈ seps, isSeparator s) (before rest : List Char) :
    wordOf (split (before ++ c :: (seps ++ rest))) (letters before).length ≠
      wordOf (split (before ++ c :: (seps ++ rest))) ((letters before).length + 1) := by
  obtain ⟨completed, current, hsplit, hlength⟩ := exists_split_letter hc before (seps ++ rest)
  obtain ⟨s, seps, rfl⟩ := List.exists_cons_of_ne_nil hseps
  have hs : isSeparator s := h s List.mem_cons_self
  rw [hsplit, hlength, Nat.add_assoc, wordOf_append_ne_iff, List.cons_append,
    splitFrom_of_isSeparator hs, finished, List.singleton_append]
  exact wordOf_last_ne c current _

/-- **Where a text is split.** Its words are its letters, in order; none is empty and none has a
separator in it. A letter with a letter right in front of it belongs to another word than that one
exactly when it is an upper-case letter behind a lower-case letter or an ASCII digit, or one between
an upper-case and a lower-case letter. With separators between them, letters never belong to one
word. -/
theorem split_boundaries (text : List Char) :
    (split text).flatten = text.filter (fun c => !isSeparator c) ∧
      (∀ w ∈ split text, w ≠ [] ∧ ∀ c ∈ w, isSeparator c = false) ∧
      (∀ before c d rest, text = before ++ c :: d :: rest → isSeparator c = false →
        isSeparator d = false →
        (wordOf (split text) (letters before).length ≠
            wordOf (split text) ((letters before).length + 1) ↔
          isUpper d ∧ (isLower c ∨ c.isDigit ∨ isUpper c ∧ ∃ e ∈ rest.head?, isLower e))) ∧
      ∀ before c seps rest, text = before ++ c :: (seps ++ rest) → isSeparator c = false →
        seps ≠ [] → (∀ s ∈ seps, isSeparator s) →
        wordOf (split text) (letters before).length ≠
          wordOf (split text) ((letters before).length + 1) := by
  refine ⟨flatten_split text, fun w hw => ?_, ?_, ?_⟩
  · exact ⟨ne_nil_of_mem_splitFrom hw, fun c hc => isSeparator_of_mem_split hw hc⟩
  · rintro before c d rest rfl hc hd
    rw [wordOf_split_ne_iff hc hd, startsWord]
    simp only [Bool.and_eq_true, Bool.or_eq_true, Option.any_eq_true, Option.mem_def, or_assoc]
  · rintro before c seps rest rfl hc hseps h
    exact wordOf_split_separated hc hseps h before rest

def acronymName : List Char := ['H', 'T', 'T', 'P', 'S', 'e', 't', '_', 'v', '2']

/-- In `HTTPSet_v2` the last capital starts a word and those before it do not; the separator keeps
the letters around it apart. -/
theorem split_boundaries_acronym :
    split acronymName = [['H', 'T', 'T', 'P'], ['S', 'e', 't'], ['v', '2']] ∧
      wordOf (split acronymName) 2 = wordOf (split acronymName) 3 ∧
      wordOf (split acronymName) 3 ≠ wordOf (split acronymName) 4 ∧
      wordOf (split acronymName) 6 ≠ wordOf (split acronymName) 7 := by
  have hT : isSeparator 'T' = false := by decide +kernel
  have hP : isSeparator 'P' = false := by decide +kernel
  have hS : isSeparator 'S' = false := by decide +kernel
  have ht : isSeparator 't' = false := by decide +kernel
  obtain ⟨-, -, hneighbours, hseparated⟩ := split_boundaries acronymName
  refine ⟨by decide +kernel, ?_, ?_, ?_⟩
  · -- a capital stands before the third one, and another one after it
    refine Decidable.not_not.mp fun hne => ?_
    obtain ⟨-, hlower | hdigit | ⟨-, e, he, hnext⟩⟩ :=
      (hneighbours ['H', 'T'] 'T' 'P' _ rfl hT hP).mp hne
    · exact absurd hlower (by decide +kernel)
    · exact absurd hdigit (by decide)
    · cases he
      exact absurd hnext (by decide +kernel)
  · refine (hneighbours ['H', 'T', 'T'] 'P' 'S' _ rfl hP hS).mpr ⟨by decide +kernel, ?_⟩
    exact .inr (.inr ⟨by decide +kernel, 'e', rfl, by decide +kernel⟩)
  · refine hseparated ['H', 'T', 'T', 'P', 'S', 'e'] 't' ['_'] _ rfl ht (List.cons_ne_nil _ _) ?_
    intro s hs
    cases List.mem_singleton.mp hs
    decide +kernel

/-! ### Joined words -/

/-- Characters that go on with the word in progress, whatever stands before them. -/
def isSettled (c : Char) : Bool := !isSeparator c && !isUpper c

theorem isSettled_iff : isSettled c = true ↔ isSeparator c = false ∧ isUpper c = false := by
  rw [isSettled, Bool.and_eq_true, Bool.not_eq_true', Bool.not_eq_true']

theorem splitFrom_settled {ds : List Char} (hds : ∀ d ∈ ds, isSettled d) (word more : List Char) :
    splitFrom word (ds ++ more) = splitFrom (ds.reverse ++ word) more := by
  induction ds generalizing word with
  | nil => rfl
  | cons d ds ih =>
    obtain ⟨hd, hds⟩ := List.forall_mem_cons.mp hds
    obtain ⟨hletter, hupper⟩ := isSettled_iff.mp hd
    have hgoes : ¬ (word.head?.any (startsWord · d (ds ++ more).head?) = true) := by
      rw [Option.any_eq_true]
      rintro ⟨c, -, hstarts⟩
      rw [startsWord, hupper, Bool.false_and] at hstarts
      exact Bool.false_ne_true hstarts
    rw [List.cons_append, splitFrom_of_letter hletter, if_neg hgoes, ih hds, List.reverse_cons,
      List.append_assoc, List.singleton_append]

/-- **Joined words are split again**, if no letter in them starts a word. -/
theorem split_joinWith (hsep : isSeparator sep) (hws : ∀ w ∈ ws, w ≠ [] ∧ ∀ c ∈ w, isSettled c) :
    split (Casing.joinWith sep ws) = ws := by
  have hfinished : ∀ {w : List Char}, w ≠ [] → finished (w.reverse ++ []) = [w] := by
    intro w hne
    rw [List.append_nil]
    obtain ⟨c, rest, heq⟩ := List.exists_cons_of_ne_nil (mt List.reverse_eq_nil_iff.mp hne)
    rw [heq, finished, ← heq, List.reverse_reverse]
  induction ws with
  | nil => rfl
  | cons w ws ih =>
    obtain ⟨⟨hne, hw⟩, hws⟩ := List.forall_mem_cons.mp hws
    cases ws with
    | nil =>
      have hread := splitFrom_settled hw [] []
      rw [List.append_nil, splitFrom_nil, hfinished hne] at hread
      rw [Casing.joinWith, List.intercalate_singleton]
      exact hread
    | cons next ws =>
      rw [Casing.joinWith, List.intercalate_cons_cons, split, List.append_assoc,
        splitFrom_settled hw, List.singleton_append, splitFrom_of_isSeparator hsep, hfinished hne]
      exact congrArg (w :: ·) (ih hws)

end SchemaProjection.Words
