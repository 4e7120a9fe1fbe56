import SchemaProjection.Proofs.Grammar.Printing

/-!
# Parsers on streams of given lexemes

What a parser makes of a stream depends on its lexemes, and places only go into the tree. So all
that is said about parsers is said up to places: a stream **shows** a list of lexemes if these
stand in front of the end token (`TokenStream.Shows`), and a parser **reads** from one list to
another if, from each stream that shows the first, it succeeds and leaves a stream that shows the
second (`Parse.Reads`).

A loop reads in rounds. `Parse.Advances` is what rounds that each consume a token add up to, and
`Parse.reads_iterate` ends them with a round that returns nothing.
-/

namespace SchemaProjection

variable {α β : Type} {l : Lexeme} {ls before mid after : List Lexeme} {s s' s'' : TokenStream}

/-! ### Streams -/

/-- The stream consists of tokens with the given lexemes and the end token. -/
structure TokenStream.Shows (s : TokenStream) (ls : List Lexeme) : Prop where
  lexemes : (s.current :: s.rest).map Token.lexeme = ls ++ [.finish]
  fault : s.fault = none

/-- The lexeme that decides what comes next. -/
def front (ls : List Lexeme) : Lexeme := ls.headD .finish

@[simp] theorem front_nil : front [] = .finish := rfl

@[simp] theorem front_cons (l : Lexeme) (ls : List Lexeme) : front (l :: ls) = l := rfl

theorem front_append_of_ne_nil (h : ls ≠ []) (after : List Lexeme) :
    front (ls ++ after) = front ls := by
  cases ls with
  | nil => exact absurd rfl h
  | cons l ls => rfl

namespace TokenStream

theorem Shows.current (h : s.Shows ls) : s.current.lexeme = front ls := by
  have hlexemes := h.lexemes
  cases ls with
  | nil => exact (List.cons.inj hlexemes).1
  | cons l ls => exact (List.cons.inj hlexemes).1

theorem Shows.length_rest (h : s.Shows ls) : s.rest.length = ls.length := by
  have hlength := congrArg List.length h.lexemes
  simpa using hlength

end TokenStream

namespace Parse

variable {x : Parse α} {f : α → Parse β} {P Q : α → Prop} {R : β → Prop}

/-! ### Reading -/

/-- **Reading.** From every stream that shows `before`, the parser comes to a result with the given
property and to a stream that shows `after`. -/
def Reads (x : Parse α) (before : List Lexeme) (Q : α → Prop) (after : List Lexeme) : Prop :=
  ∀ s, s.Shows before → ∃ a s', x.run s = .ok (a, s') ∧ Q a ∧ s'.Shows after

theorem Reads.pure {a : α} (ha : Q a) : Reads (pure a) ls Q ls :=
  fun s hs => ⟨a, s, rfl, ha, hs⟩

theorem Reads.bind (hx : Reads x before Q mid) (hf : ∀ a, Q a → Reads (f a) mid R after) :
    Reads (x >>= f) before R after := by
  intro s hs
  obtain ⟨a, s', hrun, ha, hs'⟩ := hx s hs
  obtain ⟨b, s'', hrun', hb, hs''⟩ := hf a ha s' hs'
  exact ⟨b, s'', by rw [StateT.run_bind, hrun]; exact hrun', hb, hs''⟩

theorem Reads.mono (hx : Reads x before P after) (hPQ : ∀ a, P a → Q a) : Reads x before Q after :=
  fun s hs => by
    obtain ⟨a, s', hrun, ha, hs'⟩ := hx s hs
    exact ⟨a, s', hrun, hPQ a ha, hs'⟩

/-! ### Failing -/

/-- On no stream that shows `before` the parser comes to a result. -/
def Fails (x : Parse α) (before : List Lexeme) : Prop :=
  ∀ s, s.Shows before → ∃ fault, x.run s = .error fault

theorem Fails.bind (hx : Fails x before) (f : α → Parse β) : Fails (x >>= f) before := by
  intro s hs
  obtain ⟨fault, hrun⟩ := hx s hs
  exact ⟨fault, by rw [StateT.run_bind, hrun]; rfl⟩

theorem Reads.bind_fails (hx : Reads x before Q mid) (hf : ∀ a, Q a → Fails (f a) mid) :
    Fails (x >>= f) before := by
  intro s hs
  obtain ⟨a, s', hrun, ha, hs'⟩ := hx s hs
  obtain ⟨fault, hrun'⟩ := hf a ha s' hs'
  exact ⟨fault, by rw [StateT.run_bind, hrun]; exact hrun'⟩

theorem fails_fail (cause : SyntaxCause) : Fails (fail cause : Parse α) before :=
  fun _ _ => ⟨_, rfl⟩

/-! ### Single tokens -/

theorem reads_current : Reads current ls (fun token => token.lexeme = front ls) ls :=
  fun s hs => ⟨_, s, rfl, hs.current, hs⟩

theorem reads_label : Reads label ls (· = (front ls).label) ls :=
  fun s hs => ⟨_, s, rfl, congrArg Lexeme.label hs.current, hs⟩

/-- What is done with the label is done with that of the first lexeme. -/
theorem reads_label_bind {g : String → Parse α} (h : Reads (g (front ls).label) ls Q after) :
    Reads (label >>= g) ls Q after := by
  refine reads_label.bind ?_
  rintro _ rfl
  exact h

theorem fails_label_bind {g : String → Parse α} (h : Fails (g (front ls).label) ls) :
    Fails (label >>= g) ls := by
  refine reads_label.bind_fails ?_
  rintro _ rfl
  exact h

theorem reads_closing (span : Span) : Reads (closing span) ls (fun _ => True) ls :=
  fun s hs => ⟨_, s, rfl, trivial, hs⟩

theorem reads_advance : Reads advance (l :: ls) (fun _ => True) ls := by
  rintro ⟨current, rest, fault, lastStop⟩ ⟨hlexemes, hfault⟩
  have hrest : rest.map Token.lexeme = ls ++ [.finish] := (List.cons.inj hlexemes).2
  cases rest with
  | nil => simp at hrest
  | cons token rest => exact ⟨(), _, rfl, trivial, hrest, hfault⟩

theorem reads_expect {text : String} (context : GrammarContext) (h : l.label = text) :
    Reads (expect text context) (l :: ls) (fun _ => True) ls := by
  refine reads_label_bind ?_
  rw [front_cons, if_pos h]
  exact reads_advance

theorem fails_expect {text : String} (context : GrammarContext) (h : (front ls).label ≠ text) :
    Fails (expect text context) ls := by
  refine fails_label_bind ?_
  rw [if_neg h]
  exact fails_fail _

theorem reads_skip {text : String} (h : l.label = text) :
    Reads (skip text) (l :: ls) (fun _ => True) ls := by
  refine reads_label_bind ?_
  rw [front_cons, if_pos h]
  exact reads_advance

/-- Nothing is skipped that is not there. -/
theorem reads_skip_of_ne {text : String} (h : (front ls).label ≠ text) :
    Reads (skip text) ls (fun _ => True) ls := by
  refine reads_label_bind ?_
  rw [if_neg h]
  exact .pure trivial

/-! ### Words -/

/-- The word of a token with a given text. -/
theorem bare_word {token : Token} {w : Word} (h : token.lexeme = .word w.text) :
    token.word.bare = w.bare :=
  congrArg (Word.mk · default) (congrArg Lexeme.text h)

theorem reads_identifier {w : Word} (h : isIdentifier w.text) :
    Reads identifier (.word w.text :: ls) (fun v => v.bare = w.bare) ls := by
  refine reads_current.bind fun token htoken => ?_
  have hkind : token.kind = .name := congrArg Lexeme.kind htoken
  have htext : token.text = w.text := congrArg Lexeme.text htoken
  have hfree : keywords.contains token.text = false := by
    rw [isIdentifier, Bool.and_eq_true, Bool.not_eq_true'] at h
    rw [htext, h.2]
  rw [if_neg (not_not_intro hkind), hfree, if_neg Bool.false_ne_true]
  exact reads_advance.bind fun _ _ => .pure (bare_word htoken)

theorem fails_identifier (h : (front ls).kind ≠ .name ∨ keywords.contains (front ls).text) :
    Fails identifier ls := by
  refine reads_current.bind_fails fun token htoken => ?_
  have hkind : token.kind = (front ls).kind := congrArg Lexeme.kind htoken
  have htext : token.text = (front ls).text := congrArg Lexeme.text htoken
  by_cases hname : token.kind = .name
  · have hkeyword : keywords.contains token.text := by
      rw [htext]
      exact h.resolve_left (not_not_intro (hkind ▸ hname))
    rw [if_neg (not_not_intro hname), if_pos hkeyword]
    exact fails_fail _
  · rw [if_pos hname]
    exact fails_fail _

theorem reads_memberName (w : Word) :
    Reads memberName (.word w.text :: ls) (fun v => v.bare = w.bare) ls := by
  refine reads_current.bind fun token htoken => ?_
  have hkind : token.kind = .name := congrArg Lexeme.kind htoken
  rw [if_neg (not_not_intro hkind)]
  exact reads_advance.bind fun _ _ => .pure (bare_word htoken)

/-! ### Loops -/

section Loops

variable {round : α → Parse (Option α)} {a b c : α}

/-- Rounds that each return something and consume a token. -/
inductive Rounds (round : α → Parse (Option α)) : α → TokenStream → α → TokenStream → Prop
  | refl (a : α) (s : TokenStream) : Rounds round a s a s
  | step {a b c : α} {s s' s'' : TokenStream} : (round a).run s = .ok (some b, s') →
    s'.rest.length < s.rest.length → Rounds round b s' c s'' → Rounds round a s c s''

theorem Rounds.trans (h : Rounds round a s b s') (h' : Rounds round b s' c s'') :
    Rounds round a s c s'' := by
  induction h with
  | refl => exact h'
  | step hrun hlt _ ih => exact .step hrun hlt (ih h')

/-- As many rounds as there are tokens suffice. -/
theorem loop_of_rounds (h : Rounds round a s b s') (hdone : (round b).run s' = .ok (none, s''))
    {tokens : List Token} (htokens : s.rest.length ≤ tokens.length) :
    (loop round tokens a).run s = .ok (b, s'') := by
  induction h generalizing tokens with
  -- the loop ends with the round that returns nothing, be there tokens left to count or not
  | refl => cases tokens <;> rw [loop, StateT.run_bind, hdone] <;> rfl
  | step hrun hlt _ ih =>
    cases tokens with
    | nil => exact absurd (Nat.lt_of_lt_of_le hlt htokens) (Nat.not_lt_zero _)
    | cons token tokens =>
      rw [loop, StateT.run_bind, hrun]
      exact ih hdone (Nat.le_of_lt_succ (Nat.lt_of_lt_of_le hlt htokens))

/-- **Advancing.** From every stream that shows `before`, and every value with the one property,
rounds lead to a value with the other and to a stream that shows `after`. -/
def Advances (round : α → Parse (Option α)) (P : α → Prop) (before : List Lexeme) (Q : α → Prop)
    (after : List Lexeme) : Prop :=
  ∀ a s, P a → s.Shows before → ∃ b s', Rounds round a s b s' ∧ Q b ∧ s'.Shows after

theorem Advances.refl : Advances round P ls P ls := fun a s ha hs => ⟨a, s, .refl a s, ha, hs⟩

theorem Advances.trans {S : α → Prop} (h : Advances round P before Q mid)
    (h' : Advances round Q mid S after) : Advances round P before S after := by
  intro a s ha hs
  obtain ⟨b, s', hrounds, hb, hs'⟩ := h a s ha hs
  obtain ⟨c, s'', hrounds', hc, hs''⟩ := h' b s' hb hs'
  exact ⟨c, s'', hrounds.trans hrounds', hc, hs''⟩

/-- One round. -/
theorem Advances.one (hlt : after.length < before.length)
    (h : ∀ a, P a → Reads (round a) before (fun b? => ∃ b, b? = some b ∧ Q b) after) :
    Advances round P before Q after := by
  intro a s ha hs
  obtain ⟨_, s', hrun, ⟨b, rfl, hb⟩, hs'⟩ := h a ha s hs
  have hshorter : s'.rest.length < s.rest.length := by
    rw [hs'.length_rest, hs.length_rest]
    exact hlt
  exact ⟨b, s', .step hrun hshorter (.refl b s'), hb, hs'⟩

/-- The rounds of a loop, and the one that ends it. -/
theorem reads_iterate (h : Advances round P before Q mid) (ha : P a)
    (hdone : ∀ b, Q b → Reads (round b) mid (· = none) after) :
    Reads (iterate round a) before Q after := by
  intro s hs
  obtain ⟨b, s', hrounds, hb, hs'⟩ := h a s ha hs
  obtain ⟨_, s'', hrun, rfl, hs''⟩ := hdone b hb s' hs'
  exact ⟨b, s'', loop_of_rounds hrounds hrun (Nat.le_refl _), hb, hs''⟩

/-- **Reaching.** A parser, and after it rounds. -/
def Reaches (head : Parse α) (round : α → Parse (Option α)) (before : List Lexeme) (Q : α → Prop)
    (after : List Lexeme) : Prop :=
  ∃ P mid, Reads head before P mid ∧ Advances round P mid Q after

theorem Reads.reaches (h : Reads x before Q after) : Reaches x round before Q after :=
  ⟨Q, after, h, .refl⟩

theorem Reaches.advance (h : Reaches x round before P mid) (h' : Advances round P mid Q after) :
    Reaches x round before Q after := by
  obtain ⟨S, first, hx, hadvances⟩ := h
  exact ⟨S, first, hx, hadvances.trans h'⟩

/-- A parser, the rounds after it, and the round that ends them. -/
theorem Reaches.reads (h : Reaches x round before Q mid)
    (hdone : ∀ b, Q b → Reads (round b) mid (· = none) after) :
    Reads (x >>= iterate round) before Q after := by
  obtain ⟨P, first, hx, hadvances⟩ := h
  exact hx.bind fun _ ha => reads_iterate hadvances ha hdone

end Loops

/-! ### Lists -/

/-- Lexemes that may stand in a list: they do not close it. -/
structure ListItem (ls : List Lexeme) : Prop where
  ne_nil : ls ≠ []
  label_ne : (front ls).label ≠ ")"
  kind_ne : (front ls).kind ≠ .finish

/-- What stands behind an item of a list. -/
def EndsItem (after : List Lexeme) : Prop := (front after).label = "," ∨ (front after).label = ")"

/-- What a list does behind an item. -/
def nextItem (endsEarly : Bool) (item : Parse α) (items : List α) : Parse (Option (List α)) := do
  if (← label) ≠ "," then return none
  advance
  let token ← current
  if token.label = ")" || (endsEarly && token.kind = .finish) then return some items
  return some ((← item) :: items)

section Lists

variable {endsEarly : Bool} {item : Parse α} {key : α → β} {spell : α → List Lexeme}

/-- A comma, and an item behind it. -/
theorem reads_nextItem {items : List α} {a : α} (hitem : ListItem ls)
    (hreads : Reads item (ls ++ after) (fun b => key b = key a) after) :
    Reads (nextItem endsEarly item items) (.symbol "," :: (ls ++ after))
      (fun next => ∃ b, next = some (b :: items) ∧ key b = key a) after := by
  refine reads_label_bind ?_
  have hcomma : (Lexeme.symbol ",").label = "," := rfl
  rw [front_cons, if_neg (not_not_intro hcomma)]
  refine reads_advance.bind fun _ _ => reads_current.bind fun token htoken => ?_
  rw [front_append_of_ne_nil hitem.ne_nil] at htoken
  have hlabel : token.label ≠ ")" := fun h =>
    hitem.label_ne ((congrArg Lexeme.label htoken).symm.trans h)
  have hkind : token.kind ≠ .finish := fun h =>
    hitem.kind_ne ((congrArg Lexeme.kind htoken).symm.trans h)
  rw [if_neg (by simp [hlabel, hkind])]
  exact hreads.bind fun b hb => .pure ⟨b, rfl, hb⟩

/-- A list that goes on without a comma has ended. -/
theorem reads_nextItem_of_ne {items : List α} (h : (front ls).label ≠ ",") :
    Reads (nextItem endsEarly item items) ls (· = none) ls := by
  refine reads_label_bind ?_
  rw [if_pos h]
  exact .pure rfl

/-- How the items of a list are spelled, and what is read from that. -/
def ReadsItem (item : Parse α) (key : α → β) (spell : α → List Lexeme) (a : α) : Prop :=
  ListItem (spell a) ∧
    ∀ after, EndsItem after → Reads item (spell a ++ after) (fun b => key b = key a) after

theorem endsItem_flatMap (hafter : EndsItem after) (as : List α) :
    EndsItem (as.flatMap (fun a => .symbol "," :: spell a) ++ after) := by
  cases as with
  | nil => exact hafter
  | cons a as => exact .inl rfl

theorem advances_items {as : List α} (has : ∀ a ∈ as, ReadsItem item key spell a)
    (hafter : EndsItem after) (endsEarly : Bool) (done : List β) :
    Advances (nextItem endsEarly item) (fun items => items.map key = done)
      (as.flatMap (fun a => .symbol "," :: spell a) ++ after)
      (fun items => items.map key = (as.map key).reverse ++ done) after := by
  induction as generalizing done with
  | nil => exact .refl
  | cons a as ih =>
    obtain ⟨hitem, hreads⟩ := has a List.mem_cons_self
    have hrest := ih (fun b hb => has b (List.mem_cons_of_mem _ hb)) (key a :: done)
    rw [List.map_cons, List.reverse_cons, List.append_assoc]
    refine .trans (.one ?_ fun items hitems => ?_) hrest
    · simp only [List.flatMap_cons, List.cons_append, List.length_cons, List.length_append]
      omega
    · rw [List.flatMap_cons, List.cons_append, List.cons_append, List.append_assoc]
      refine (reads_nextItem hitem (hreads _ (endsItem_flatMap hafter as))).mono ?_
      rintro _ ⟨b, rfl, hb⟩
      exact ⟨_, rfl, by rw [List.map_cons, hb, hitems]⟩

theorem intercalate_comma (a : α) (as : List α) :
    [Lexeme.symbol ","].intercalate ((a :: as).map spell) =
      spell a ++ as.flatMap fun b => .symbol "," :: spell b := by
  induction as generalizing a with
  | nil => simp
  | cons b as ih =>
    have hrest := ih b
    rw [List.map_cons] at hrest
    rw [List.map_cons, List.map_cons, List.intercalate_cons_cons, hrest, List.flatMap_cons,
      List.append_assoc]
    rfl

/-- An item is shorter than the list by the parentheses at least. -/
theorem length_le_length_listed (spell : α → List Lexeme) {a : α} {as : List α} (ha : a ∈ as) :
    (spell a).length + 2 ≤ (listed (as.map spell)).length := by
  cases as with
  | nil => cases ha
  | cons b as =>
    -- the first item stands in front of the list of the others, each with its comma
    have hle : (spell a).length ≤
        (spell b).length + (as.flatMap fun c => Lexeme.symbol "," :: spell c).length := by
      rcases List.mem_cons.mp ha with rfl | ha
      · exact Nat.le_add_right _ _
      · have hsub := (List.sublist_flatten_of_mem
          (List.mem_map_of_mem (f := fun c => Lexeme.symbol "," :: spell c) ha)).length_le
        rw [← List.flatMap_def, List.length_cons] at hsub
        omega
    rw [listed, enclosed, intercalate_comma]
    simp only [List.cons_append, List.length_cons, List.length_append, List.length_nil]
    omega

/-- **Lists are read back.** -/
theorem reads_listOf (context : GrammarContext) {as : List α}
    (has : ∀ a ∈ as, ReadsItem item key spell a) :
    Reads (listOf endsEarly context item) (listed (as.map spell) ++ after)
      (fun bs => bs.map key = as.map key) after := by
  rw [listOf, listed, enclosed_append]
  -- the items are collected in reverse
  have hclose : ∀ bs : List α, bs.map key = (as.map key).reverse →
      Reads (expect ")" context >>= fun _ => pure bs.reverse) (.symbol ")" :: after)
        (fun bs => bs.map key = as.map key) after := by
    intro bs hbs
    refine (reads_expect context rfl).bind fun _ _ => .pure ?_
    rw [List.map_reverse, hbs, List.reverse_reverse]
  refine (reads_expect context rfl).bind fun _ _ => reads_label_bind ?_
  cases as with
  | nil => exact hclose [] rfl
  | cons a as =>
    obtain ⟨hitem, hreads⟩ := has a List.mem_cons_self
    have hafter : EndsItem (.symbol ")" :: after) := .inr rfl
    rw [intercalate_comma, List.append_assoc, front_append_of_ne_nil hitem.ne_nil,
      if_neg hitem.label_ne]
    refine (hreads _ (endsItem_flatMap hafter as)).bind fun b hb => ?_
    have hitems := advances_items (fun c hc => has c (List.mem_cons_of_mem _ hc)) hafter endsEarly
      [key a]
    refine Reads.bind (reads_iterate hitems (by rw [List.map_singleton, hb]) fun items _ =>
      reads_nextItem_of_ne (by simp)) fun items hitems => hclose items ?_
    rw [hitems, List.map_cons, List.reverse_cons]

end Lists

end Parse

end SchemaProjection
