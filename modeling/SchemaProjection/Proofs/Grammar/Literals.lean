import SchemaProjection.Proofs.Grammar.Printing

/-!
# What string literals denote

A string has many spellings between quotes: a character stands for itself, or is written by a short
escape, or by one numeric escape, or above `U+FFFF` by two of them (`Spelling`). Whatever the
spelling, it is read back as the string (`decode_of_spelling`).

Before a literal is decoded, a scanner looks for its end. What the scanner lets pass are the
contents of the right shape (`Shaped`): it finds the end of a literal exactly if the content in
front of it has that shape (`literalFrom_eq_ok_iff`). Every spelling has it (`shaped_of_spelling`).
-/

namespace SchemaProjection

namespace Json.Literal

variable {c : Char} {text rest : List Char}

/-! ### Escapes -/

/-- A short escape stands for one character. -/
theorem decodeFrom_short {mark : Char} (hu : mark ≠ 'u') (hmark : shortEscape? mark = some c)
    (column : Nat) (done : List Char) :
    decodeFrom column done ('\\' :: mark :: rest) = decodeFrom (column + 2) (c :: done) rest := by
  rw [decodeFrom.eq_3 _ _ _ _ fun _ _ _ _ _ h => absurd h hu, hmark]

/-! ### Spellings -/

/-- A hexadecimal digit and its value, in either case. -/
def IsHexDigit (n : Nat) (c : Char) : Prop :=
  n < 16 ∧ (c = Nat.digitChar n ∨ c = (Nat.digitChar n).toUpper)

/-- Four hexadecimal digits and their value. -/
inductive Hex4 : Nat → List Char → Prop
  | mk {k l m n : Nat} {a b c d : Char} : IsHexDigit k a → IsHexDigit l b → IsHexDigit m c →
    IsHexDigit n d → Hex4 (k * 0x1000 + l * 0x100 + m * 0x10 + n) [a, b, c, d]

/-- The short escapes: what stands behind the backslash, and what is meant. -/
def shortEscapes : List (Char × Char) :=
  [('"', '"'), ('\\', '\\'), ('/', '/'), ('b', '\x08'), ('f', '\x0c'), ('n', '\n'), ('r', '\r'),
    ('t', '\t')]

/-- **The spellings of a character.** -/
inductive CharSpelling : Char → List Char → Prop
  | plain {c : Char} : c ≠ '"' → c ≠ '\\' → 0x20 ≤ c.toNat → CharSpelling c [c]
  | short {c mark : Char} : (mark, c) ∈ shortEscapes → CharSpelling c ['\\', mark]
  | unit {c : Char} {digits : List Char} : Hex4 c.toNat digits →
    CharSpelling c ('\\' :: 'u' :: digits)
  | pair {c : Char} {leading trailing : List Char} : 0x10000 ≤ c.toNat →
    Hex4 (0xD800 + (c.toNat - 0x10000) / 0x400) leading →
    Hex4 (0xDC00 + (c.toNat - 0x10000) % 0x400) trailing →
    CharSpelling c ('\\' :: 'u' :: leading ++ '\\' :: 'u' :: trailing)

/-- **The spellings of a string**, character by character. -/
inductive Spelling : List Char → List Char → Prop
  | nil : Spelling [] []
  | cons {c : Char} {s text rest : List Char} : CharSpelling c text → Spelling s rest →
    Spelling (c :: s) (text ++ rest)

/-! ### Decoding -/

theorem hexDigit?_digitChar : ∀ n < 16, hexDigit? (Nat.digitChar n) = some n := by
  decide

theorem hexDigit?_toUpper_digitChar :
    ∀ n < 16, hexDigit? (Nat.digitChar n).toUpper = some n := by
  decide

theorem IsHexDigit.hexDigit? {n : Nat} (h : IsHexDigit n c) : hexDigit? c = some n := by
  obtain ⟨hn, rfl | rfl⟩ := h
  · exact hexDigit?_digitChar n hn
  · exact hexDigit?_toUpper_digitChar n hn

/-- Four digits and what the decoder makes of them. -/
theorem Hex4.hexNumber? {unit : Nat} (h : Hex4 unit text) :
    ∃ a b c d, text = [a, b, c, d] ∧ hexNumber? a b c d = some unit := by
  obtain ⟨ha, hb, hc, hd⟩ := h
  refine ⟨_, _, _, _, rfl, ?_⟩
  rw [Literal.hexNumber?, ha.hexDigit?, hb.hexDigit?, hc.hexDigit?, hd.hexDigit?]
  rfl

theorem shortEscape?_of_mem {mark : Char} (h : (mark, c) ∈ shortEscapes) :
    mark ≠ 'u' ∧ shortEscape? mark = some c := by
  have hall : ∀ e ∈ shortEscapes, e.1 ≠ 'u' ∧ shortEscape? e.1 = some e.2 := by decide
  exact hall _ h

/-- Code points are no surrogates. -/
theorem not_surrogate (c : Char) : isTrailing c.toNat = false ∧ isLeading c.toNat = false := by
  have hvalid : c.toNat < 0xD800 ∨ 0xDFFF < c.toNat ∧ c.toNat < 0x110000 := c.valid
  simp only [isTrailing, isLeading, Bool.and_eq_false_iff, decide_eq_false_iff_not]
  omega

/-- The two surrogates of a code point, and that they make up the code point. -/
theorem surrogates (hc : 0x10000 ≤ c.toNat) :
    isTrailing (0xD800 + (c.toNat - 0x10000) / 0x400) = false ∧
      isLeading (0xD800 + (c.toNat - 0x10000) / 0x400) = true ∧
      isTrailing (0xDC00 + (c.toNat - 0x10000) % 0x400) = true ∧
      combine (0xD800 + (c.toNat - 0x10000) / 0x400) (0xDC00 + (c.toNat - 0x10000) % 0x400) = c := by
  have hvalid : c.toNat < 0xD800 ∨ 0xDFFF < c.toNat ∧ c.toNat < 0x110000 := c.valid
  have hsum : (0xD800 + (c.toNat - 0x10000) / 0x400 - 0xD800) * 0x400 +
      (0xDC00 + (c.toNat - 0x10000) % 0x400 - 0xDC00) + 0x10000 = c.toNat := by omega
  refine ⟨?_, ?_, ?_, ?_⟩
  · simp only [isTrailing, Bool.and_eq_false_iff, decide_eq_false_iff_not]
    omega
  · simp only [isLeading, Bool.and_eq_true, decide_eq_true_eq]
    omega
  · simp only [isTrailing, Bool.and_eq_true, decide_eq_true_eq]
    omega
  · rw [combine, hsum, Char.ofNat_toNat]

/-- A character is read back from its spelling, whatever stands behind it. -/
theorem decodeFrom_charSpelling (h : CharSpelling c text) (column : Nat) (done rest : List Char) :
    ∃ column', decodeFrom column done (text ++ rest) = decodeFrom column' (c :: done) rest := by
  cases h with
  | plain hquote hbackslash hplain =>
    refine ⟨column + c.utf8Size, ?_⟩
    rw [List.singleton_append, decodeFrom.eq_4 _ _ _ _ hquote
      (fun _ _ _ _ _ h => absurd h hbackslash) (fun _ _ h => absurd h hbackslash),
      if_neg hbackslash, if_neg (Nat.not_lt.mpr hplain)]
  | short hmark =>
    obtain ⟨hu, hmark⟩ := shortEscape?_of_mem hmark
    exact ⟨column + 2, decodeFrom_short hu hmark column done⟩
  | unit hdigits =>
    obtain ⟨a, b, d, e, rfl, hnumber⟩ := hdigits.hexNumber?
    obtain ⟨htrailing, hleading⟩ := not_surrogate c
    refine ⟨column + 6, ?_⟩
    simp only [List.cons_append, List.nil_append]
    rw [decodeFrom.eq_2, hnumber]
    simp only [htrailing, hleading, Bool.false_eq_true, if_false, Char.ofNat_toNat]
  | pair hc hfirst hsecond =>
    obtain ⟨a, b, d, e, rfl, hunit⟩ := hfirst.hexNumber?
    obtain ⟨f, g, i, j, rfl, hunit'⟩ := hsecond.hexNumber?
    obtain ⟨hfirstTrailing, hleading, htrailing, hcombine⟩ := surrogates hc
    refine ⟨column + 12, ?_⟩
    simp only [List.cons_append, List.nil_append]
    rw [decodeFrom.eq_2, hunit]
    simp only [hfirstTrailing, hleading, htrailing, hunit', hcombine, Bool.false_eq_true, if_false,
      if_true]

theorem decodeFrom_spelling {s : List Char} (h : Spelling s text) (column : Nat)
    (done rest : List Char) :
    decodeFrom column done (text ++ '"' :: rest) = .ok (done.reverse ++ s, rest) := by
  induction h generalizing column done with
  | nil => rw [List.append_nil]; exact decodeFrom.eq_1 _ _ _
  | cons hc _ ih =>
    obtain ⟨column', hstep⟩ := decodeFrom_charSpelling hc column done _
    rw [List.append_assoc, hstep, ih, List.reverse_cons, List.append_assoc]
    rfl

/-- **A string is read back from each of its spellings.** -/
theorem decode_of_spelling {s : List Char} (h : Spelling s text) :
    decode (text ++ ['"']) = .ok (s, []) :=
  decodeFrom_spelling h 1 [] []

/-! ### The spelling that is written -/

theorem hex4_hexPair {n : Nat} (h : n < 0x20) : Hex4 n ('0' :: '0' :: hexPair n) := by
  have hzero : IsHexDigit 0 '0' := ⟨by decide, .inl rfl⟩
  have hdigits : Hex4 _ ['0', '0', Nat.digitChar (n / 16), Nat.digitChar (n % 16)] :=
    .mk hzero hzero ⟨by omega, .inl rfl⟩ ⟨by omega, .inl rfl⟩
  have hvalue : 0 * 0x1000 + 0 * 0x100 + n / 16 * 0x10 + n % 16 = n := by omega
  rw [hvalue] at hdigits
  exact hdigits

theorem charSpelling_escape (c : Char) : CharSpelling c (escape c) := by
  fun_cases escape c with
  | case1 | case2 | case3 | case4 | case5 | case6 | case7 => exact .short (by decide)
  | case8 c _ _ _ _ _ _ _ hcontrol => exact .unit (hex4_hexPair hcontrol)
  | case9 c hquote hbackslash _ _ _ _ _ hcontrol =>
    exact .plain hquote hbackslash (Nat.le_of_not_lt hcontrol)

theorem spelling_quotedText (s : String) : Spelling s.toList (quotedText s).toList := by
  rw [quotedText, String.toList_ofList]
  induction s.toList with
  | nil => exact .nil
  | cons c s ih => exact .cons (charSpelling_escape c) ih

/-- **What is written as a literal is its value.** -/
theorem decode_quotedText (s : String) :
    decode ((quotedText s).toList ++ ['"']) = .ok (s.toList, []) :=
  decode_of_spelling (spelling_quotedText s)

end Json.Literal

/-! ### Where a literal ends -/

namespace Cursor

open Json.Literal

variable {c : Char} {text rest content : List Char}

/-- **Contents of the right shape**, of which the first characters are the given number of
hexadecimal digits that are still due. -/
inductive Shaped : Nat → List Char → Prop
  | nil : Shaped 0 []
  | plain {c : Char} {rest : List Char} : c ≠ '"' → c ≠ '\x00' → c ≠ '\n' → c ≠ '\\' →
    Shaped 0 rest → Shaped 0 (c :: rest)
  | short {mark : Char} {rest : List Char} : mark ≠ 'u' → (shortEscape? mark).isSome →
    Shaped 0 rest → Shaped 0 ('\\' :: mark :: rest)
  | unit {rest : List Char} : Shaped 4 rest → Shaped 0 ('\\' :: 'u' :: rest)
  | digit {hex : Nat} {c : Char} {rest : List Char} : (hexDigit? c).isSome → Shaped hex rest →
    Shaped (hex + 1) (c :: rest)

/-- A content of the right shape is scanned to its end. -/
theorem literalFrom_of_shaped {hex : Nat} (h : Shaped hex text) (unmatched : LexicalFault)
    (line col : Nat) (done rest : List Char) :
    literalFrom unmatched line hex col done (text ++ '"' :: rest) =
      .ok (done.reverse ++ text, rest) := by
  induction h generalizing col done with
  | nil => rw [List.append_nil]; rfl
  | plain hquote hnul hline hbackslash _ ih =>
    rw [List.cons_append, literalFrom.eq_8 _ _ _ _ _ _ hquote hnul hline
      (fun _ h => absurd h hbackslash) (fun _ _ h => absurd h hbackslash), if_neg hbackslash, ih,
      List.reverse_cons, List.append_assoc]
    rfl
  | short hu hmark _ ih =>
    rw [List.cons_append, List.cons_append, literalFrom.eq_7 _ _ _ _ _ _ hu, if_pos hmark, ih]
    simp
  | unit _ ih =>
    rw [List.cons_append, List.cons_append, literalFrom.eq_6, ih]
    simp
  | digit hdigit _ ih =>
    rw [List.cons_append, literalFrom.eq_1, if_pos hdigit, ih, List.reverse_cons, List.append_assoc]
    rfl

/-- What is scanned to its end has the right shape. -/
theorem shaped_of_literalFrom {unmatched : LexicalFault} {line hex col : Nat} {done : List Char}
    (h : literalFrom unmatched line hex col done text = .ok (content, rest)) :
    ∃ inner, Shaped hex inner ∧ content = done.reverse ++ inner ∧ text = inner ++ '"' :: rest := by
  -- the scanner reads on, or it has come to the quote, or it fails
  fun_induction literalFrom unmatched line hex col done text with
  | case1 hex col done c text hdigit ih =>
    obtain ⟨inner, hinner, rfl, rfl⟩ := ih h
    exact ⟨c :: inner, .digit hdigit hinner, by simp, rfl⟩
  | case4 col done text =>
    cases h
    exact ⟨[], .nil, (List.append_nil _).symm, rfl⟩
  | case7 col done text ih =>
    obtain ⟨inner, hinner, rfl, rfl⟩ := ih h
    exact ⟨'\\' :: 'u' :: inner, .unit hinner, by simp, rfl⟩
  | case8 col done c text hu hmark ih =>
    obtain ⟨inner, hinner, rfl, rfl⟩ := ih h
    exact ⟨'\\' :: c :: inner, .short hu hmark hinner, by simp, rfl⟩
  | case11 col done c text hquote hnul hline _ _ hbackslash ih =>
    obtain ⟨inner, hinner, rfl, rfl⟩ := ih h
    exact ⟨c :: inner, .plain hquote hnul hline hbackslash hinner, by simp, rfl⟩
  | case2 | case3 | case5 | case6 | case9 | case10 | case12 => cases h

/-- **A literal ends behind the content of the right shape.** -/
theorem literalFrom_eq_ok_iff {unmatched : LexicalFault} {line hex col : Nat} :
    literalFrom unmatched line hex col [] text = .ok (content, rest) ↔
      Shaped hex content ∧ text = content ++ '"' :: rest := by
  constructor
  · intro h
    obtain ⟨inner, hinner, rfl, rfl⟩ := shaped_of_literalFrom h
    exact ⟨hinner, rfl⟩
  · rintro ⟨hcontent, rfl⟩
    exact literalFrom_of_shaped hcontent unmatched line col [] rest

theorem Shaped.append_hex4 {unit : Nat} (hdigits : Hex4 unit text) (hrest : Shaped 0 rest) :
    Shaped 4 (text ++ rest) := by
  obtain ⟨ha, hb, hc, hd⟩ := hdigits
  have hisSome : ∀ {n : Nat} {c : Char}, IsHexDigit n c → (hexDigit? c).isSome := fun h => by
    rw [h.hexDigit?]
    rfl
  exact .digit (hisSome ha) (.digit (hisSome hb) (.digit (hisSome hc) (.digit (hisSome hd) hrest)))

theorem Shaped.append_charSpelling (hc : CharSpelling c text) (hrest : Shaped 0 rest) :
    Shaped 0 (text ++ rest) := by
  cases hc with
  | plain hquote hbackslash hplain =>
    have hnul : c ≠ '\x00' := fun h => by simp [h] at hplain
    have hline : c ≠ '\n' := fun h => by simp [h] at hplain
    exact .plain hquote hnul hline hbackslash hrest
  | short hmark =>
    obtain ⟨hu, hmark⟩ := shortEscape?_of_mem hmark
    exact .short hu (by rw [hmark]; rfl) hrest
  | unit hdigits => exact .unit (.append_hex4 hdigits hrest)
  | pair _ hfirst hsecond =>
    rw [List.append_assoc]
    exact .unit (.append_hex4 hfirst (.unit (.append_hex4 hsecond hrest)))

/-- **Every spelling has the right shape.** -/
theorem shaped_of_spelling {s : List Char} (h : Spelling s text) : Shaped 0 text := by
  induction h with
  | nil => exact .nil
  | cons hc _ ih => exact .append_charSpelling hc ih

/-- A literal is written on one line, and does not hold the end of the text. -/
theorem Shaped.not_mem {hex : Nat} (h : Shaped hex text) : '\n' ∉ text ∧ '\x00' ∉ text := by
  induction h with
  | nil => exact ⟨List.not_mem_nil, List.not_mem_nil⟩
  | plain _ hnul hline _ _ ih =>
    exact ⟨List.not_mem_cons_of_ne_of_not_mem hline.symm ih.1,
      List.not_mem_cons_of_ne_of_not_mem hnul.symm ih.2⟩
  | short _ hmark _ ih =>
    refine ⟨?_, ?_⟩ <;> rintro (_ | ⟨_, _ | ⟨_, h⟩⟩)
    · cases hmark
    · exact ih.1 h
    · cases hmark
    · exact ih.2 h
  | unit _ ih => exact ⟨by simp [ih.1], by simp [ih.2]⟩
  | digit hdigit _ ih =>
    refine ⟨?_, ?_⟩ <;> rintro (_ | ⟨_, h⟩)
    · cases hdigit
    · exact ih.1 h
    · cases hdigit
    · exact ih.2 h

end Cursor

end SchemaProjection
