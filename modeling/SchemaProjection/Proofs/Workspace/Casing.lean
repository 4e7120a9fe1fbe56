import SchemaProjection.Proofs.Graph.Bisimilarity
import SchemaProjection.Proofs.Text.Casing
import SchemaProjection.Proofs.Workspace.Bodies
import SchemaProjection.Proofs.Workspace.Members

/-!
# A projection that changes the casing of names

The projection of `casingText` renames the properties of a model to camel case, and back to snake
case. Each of its directions is a loop over the properties that renames them one after the other
while the others still have their old names, so a new name could be taken.

For names of recoverable words this does not happen (`Workspace.casing_roundtrip`): camel case is
undone by snake case, hence two properties that would get the same name have the same name, and a
property whose new name another one has already is that other one. What the two runs lead to is
bisimilar to the model they began with, since a renamed property keeps its type.
-/

namespace SchemaProjection

/-! ### Models with the same properties -/

namespace Graph

variable {g : Graph} {a b : NodeId} {name : Option String} {s t : NameTable}

/-- Two properties that say the same of themselves. -/
def SameProperty (g : Graph) (a b : NodeId) : Prop :=
  ∃ name type optional, g.shape a = .modelProperty name type optional ∧
    g.shape b = .modelProperty name type optional

/-- **Two models of one name with the same properties** are bisimilar. -/
theorem bisimilar_of_sameProperty (ha : g.shape a = .model name s) (hb : g.shape b = .model name t)
    (hsame : List.Forall₂ (fun e e' => e.1 = e'.1 ∧ g.SameProperty e.2 e'.2) s.entries t.entries) :
    g.Bisimilar a b := by
  -- the two models are related, their properties, and each node with itself
  refine ⟨fun x y => x = y ∨ (x = a ∧ y = b) ∨ g.SameProperty x y, ?_, .inr (.inl ⟨rfl, rfl⟩)⟩
  rintro x y (hxy | ⟨rfl, rfl⟩ | ⟨name, type, optional, hx, hy⟩)
  · exact .inl hxy
  · rw [ha, hb]
    refine .inr (.model ⟨?_, ?_⟩)
    · have hnames : List.Forall₂ Eq s.keys t.keys :=
        List.forall₂_map_left_iff.mpr <| List.forall₂_map_right_iff.mpr <|
          hsame.imp fun _ _ h => h.1
      rwa [List.forall₂_eq_eq_eq] at hnames
    · exact List.forall₂_map_left_iff.mpr <| List.forall₂_map_right_iff.mpr <|
        hsame.imp fun _ _ h => .inr (.inr h.2)
  · rw [hx, hy]
    exact .inr (.modelProperty (.inl rfl))

end Graph

/-! ### Fates of names -/

/-- Every property is renamed, to its name in another casing. -/
def Casing.fate (casing : Casing) : Fate := fun e => some (casing.apply e.1)

namespace Fate

variable {casing : Casing} {source g h : Graph} {t t' : NameTable}

/-- New names do not collide if they tell old names apart and are not taken by others. -/
theorem noCollision_casing
    (hdistinct : ∀ n ∈ t.keys, ∀ n' ∈ t.keys, casing.apply n = casing.apply n' → n = n')
    (hfresh : ∀ n ∈ t.keys, ∀ n' ∈ t.keys, casing.apply n = n' → n = n') :
    casing.fate.NoCollision t.entries where
  distinct _ he _ he' _ hnew hnew' :=
    NameTable.eq_of_mem_entries he he' <|
      hdistinct _ (NameTable.mem_keys_of_mem he) _ (NameTable.mem_keys_of_mem he')
        (Option.some.inj (hnew.trans hnew'.symm))
  fresh _ he _ he' hnew :=
    NameTable.eq_of_mem_entries he he' <|
      hfresh _ (NameTable.mem_keys_of_mem he) _ (NameTable.mem_keys_of_mem he')
        (Option.some.inj hnew)

section

variable {other : Casing} (hundone : ∀ n ∈ t.keys, other.apply (casing.apply n) = n)
  (hfixed : ∀ n ∈ t.keys, other.apply n = n)
include hundone hfixed

/-- **A casing that another one undoes** makes no names collide, where the other does nothing. -/
theorem noCollision_there : casing.fate.NoCollision t.entries := by
  refine noCollision_casing (fun n hn n' hn' heq => ?_) fun n hn n' hn' heq => ?_
  · exact (hundone n hn).symm.trans ((congrArg _ heq).trans (hundone n' hn'))
  · exact (hundone n hn).symm.trans ((congrArg _ heq).trans (hfixed n' hn'))

/-- **On the way back** there is no collision either, since each name is the image of an old one. -/
theorem noCollision_back (hkeys : t'.keys = t.keys.map casing.apply) :
    other.fate.NoCollision t'.entries := by
  have himage : ∀ n' ∈ t'.keys, ∃ n ∈ t.keys, casing.apply n = n' := fun n' hn' =>
    List.mem_map.mp (hkeys ▸ hn')
  refine noCollision_casing (fun n hn n' hn' heq => ?_) fun n hn n' hn' heq => ?_
  · obtain ⟨m, hm, rfl⟩ := himage n hn
    obtain ⟨m', hm', rfl⟩ := himage n' hn'
    exact congrArg _ ((hundone m hm).symm.trans (heq.trans (hundone m' hm')))
  · obtain ⟨m, hm, rfl⟩ := himage n hn
    obtain ⟨m', hm', rfl⟩ := himage n' hn'
    -- the old name is an image itself, and the other casing tells of what
    have hself : m = casing.apply m' := (hundone m hm).symm.trans heq
    exact congrArg _ ((hfixed m hm).symm.trans ((congrArg _ hself).trans (hundone m' hm')))

end

theorem Fulfilled.forall₂ (hf : casing.fate.Fulfilled source g t.entries t'.entries) :
    List.Forall₂ (casing.fate.Keeps source g) t.entries t'.entries := by
  have hall : t.entries.filter (fun e => (casing.fate e).isSome) = t.entries :=
    List.filter_eq_self.mpr fun _ _ => rfl
  rwa [Fulfilled, hall] at hf

/-- All names are changed, in their order. -/
theorem Fulfilled.keys_casing (hf : casing.fate.Fulfilled source g t.entries t'.entries) :
    t'.keys = t.keys.map casing.apply := by
  have hnames : List.Forall₂ Eq (t.keys.map casing.apply) t'.keys :=
    List.forall₂_map_left_iff.mpr <| List.forall₂_map_left_iff.mpr <|
      List.forall₂_map_right_iff.mpr <| hf.forall₂.imp fun _ _ hk => Option.some.inj hk.1
  rw [List.forall₂_eq_eq_eq] at hnames
  exact hnames.symm

/-- A property with its name changed and changed back is the property that it was. -/
theorem Keeps.undone {other : Casing} {a b c : String × NodeId}
    (hthere : casing.fate.Keeps source g a b) (hback : other.fate.Keeps g h b c)
    (hundone : other.apply (casing.apply a.1) = a.1) (hle : source ≤ h) :
    c.1 = a.1 ∧ h.SameProperty c.2 a.2 := by
  obtain ⟨hname, type, optional, ha, hb⟩ := hthere
  obtain ⟨hname', type', optional', hb', hc⟩ := hback
  cases hb.symm.trans hb'
  have hnames : c.1 = a.1 := by
    rw [← Option.some.inj hname', ← Option.some.inj hname, hundone]
  refine ⟨hnames, a.1, type, optional, hnames ▸ hc, ?_⟩
  rw [Graph.shape_of_le hle (Graph.contains_of_modelProperty ha), ha]

/-- **Properties renamed and renamed back** are the properties that they were. -/
theorem sameProperty_of_undone {other : Casing} {as bs cs : List (String × NodeId)}
    (hthere : List.Forall₂ (casing.fate.Keeps source g) as bs)
    (hback : List.Forall₂ (other.fate.Keeps g h) bs cs)
    (hundone : ∀ a ∈ as, other.apply (casing.apply a.1) = a.1) (hle : source ≤ h) :
    List.Forall₂ (fun e e' => e.1 = e'.1 ∧ h.SameProperty e.2 e'.2) cs as := by
  induction hthere generalizing cs with
  | nil =>
    cases hback
    exact .nil
  | cons hfirst _ ih =>
    cases hback with
    | cons hfirst' hrest' =>
      obtain ⟨hhead, htail⟩ := List.forall_mem_cons.mp hundone
      exact .cons (hfirst.undone hfirst' hhead hle) (ih hrest' htail)

end Fate

/-! ### The projection -/

namespace Form

/-- Every property of the node is renamed, to what a method makes of its name. -/
def renameAll (method : String) : DirectionTree :=
  ⟨default, [], forProperties "p" <| block
    [onItem "renameProperty" "p" [call (member (member (name "p") "name") method) []]]⟩

/-- To camel case and back. -/
def casing : ProjectionTree :=
  ⟨default, word "model", word "camel", some (renameAll "toCamelCase"),
    some (renameAll "toSnakeCase")⟩

end Form

def casingText : String := String.join
  ["\nprojection model#camel \x7b\n",
    "  to \x7b\n",
    "    self.properties.forEach((p) => \x7b\n",
    "      self.renameProperty(p.name, p.name.toCamelCase());\n",
    "    \x7d);\n",
    "  \x7d\n",
    "  from \x7b\n",
    "    self.properties.forEach((p) => \x7b\n",
    "      self.renameProperty(p.name, p.name.toSnakeCase());\n",
    "    \x7d);\n",
    "  \x7d\n",
    "\x7d\n"]

def casingSource : Source := ⟨"casing.cadl", casingText⟩

theorem hasForms_casingSource : casingSource.hasForms [Form.casing] :=
  Source.hasForms_of_lines (by decide +kernel)

namespace Workspace

variable {w : Workspace} {p : Projection} {node : NodeId} {direction : Direction}
  {tree : DirectionTree} {name : Option String} {t : NameTable} {casing : Casing} {method : String}

/-- **Renaming all properties succeeds** if the new names do not collide. -/
theorem tryProject_renameAll (hp : w.declarations.get? p.id = some p)
    (hdepth : 1 ≤ w.options.maxDepth) (htree : p.direction? direction = some tree)
    (hform : tree.bare = Form.renameAll method) (hmethod : Evaluation.casing? method = some casing)
    (hmodel : w.graph.shape node = .model name t)
    (hproperties : ∀ e ∈ t.entries, ∃ type optional,
      w.graph.shape e.2 = .modelProperty e.1 type optional)
    (hfate : casing.fate.NoCollision t.entries) :
    ∃ h updated t', w.tryProject node ⟨p.id, direction⟩ [] = (.ok updated, { w with graph := h }) ∧
      w.graph ≤ h ∧ h.shape updated = .model name t' ∧
      casing.fate.Fulfilled w.graph h t.entries t'.entries := by
  have hparams : tree.params = [] := List.map_eq_nil_iff.mp (congrArg DirectionTree.params hform)
  refine tryProject_forProperties hp hdepth htree (congrArg DirectionTree.body hform) hmodel
    hproperties (by rw [hparams]; rfl) fun done e rest g self hentries hu => ?_
  rw [hparams]
  rw [hentries] at hfate
  have hnodup : (done ++ e :: rest).Nodup := hentries ▸ t.nodup_keys.of_map
  have hitem : [[], [("p", Value.type e.2)], [], []].findSome? (·.lookup "p") =
    some (.type e.2) := rfl
  obtain ⟨h, updated, hnext, hrename⟩ := hu.proceeds_rename rfl hitem hfate hnodup rfl
    ((hu.yields_itemName hitem).casing hmethod)
  exact ⟨h, updated, hnext, Stmt.ProceedAll.block (.cons hrename (.nil _))⟩

/-- **There and back.** In every reachable workspace, if the names of the properties of a model are
made of recoverable words, then renaming them to camel case succeeds, renaming them back succeeds,
and what comes out is structurally equal to the model. In between the names are those in camel
case. -/
theorem casing_roundtrip (hw : w.Reachable Event.Regular) (hdepth : 1 ≤ w.options.maxDepth)
    (hp : w.declarations.get? p.id = some p) (hsource : p.DeclaredFrom casingSource)
    (hmodel : w.graph.shape node = .model name t)
    (hnames : ∀ n ∈ t.keys, ∃ words, Words.Recoverable words ∧ n = Words.snakeName words) :
    ∃ camel between snake after,
      w.tryProject node ⟨p.id, .forward⟩ [] = (.ok camel, between) ∧
      between.tryProject camel ⟨p.id, .backward⟩ [] = (.ok snake, after) ∧
      (∃ t', between.graph.shape camel = .model name t' ∧
        t'.keys = t.keys.map Casing.camel.apply) ∧
      (∃ t', after.graph.shape snake = .model name t' ∧ t'.keys = t.keys) ∧
      after.graph.structurallyEqual snake node = true := by
  obtain ⟨there, hthere, hto⟩ := hsource.direction? hasForms_casingSource .forward rfl
  obtain ⟨back, hback, hfrom⟩ := hsource.direction? hasForms_casingSource .backward rfl
  -- snake case undoes camel case, and does nothing to the names themselves
  have hundone : ∀ n ∈ t.keys, Casing.snake.apply (Casing.camel.apply n) = n := by
    intro n hn
    obtain ⟨words, hwords, rfl⟩ := hnames n hn
    exact Casing.snake_camel hwords
  have hsnake : ∀ n ∈ t.keys, Casing.snake.apply n = n := by
    intro n hn
    obtain ⟨words, hwords, rfl⟩ := hnames n hn
    exact Casing.snake_snakeName hwords.snake
  obtain ⟨h, camel, t', hrun, hle, hcamel, hkept⟩ :=
    tryProject_renameAll hp hdepth hthere hto rfl hmodel (hw.properties hmodel)
      (Fate.noCollision_there hundone hsnake)
  obtain ⟨k, snake, t'', hrun', hle', hsnake', hkept'⟩ :=
    tryProject_renameAll (w := { w with graph := h }) hp hdepth hback hfrom rfl hcamel
      hkept.properties (Fate.noCollision_back hundone hsnake hkept.keys_casing)
  have hkeys : t''.keys = t.keys := by
    rw [hkept'.keys_casing, hkept.keys_casing, List.map_map]
    exact (List.map_congr_left hundone).trans (List.map_id _)
  refine ⟨camel, _, snake, _, hrun, hrun', ⟨t', hcamel, hkept.keys_casing⟩,
    ⟨t'', hsnake', hkeys⟩, ?_⟩
  have hold : k.shape node = .model name t := by
    rw [Graph.shape_of_le (le_trans hle hle') (Graph.contains_of_model hmodel), hmodel]
  refine (Graph.structurallyEqual_iff snake node).mpr ?_
  exact Graph.bisimilar_of_sameProperty hsnake' hold <|
    Fate.sameProperty_of_undone hkept.forall₂ hkept'.forall₂
      (fun e he => hundone e.1 (NameTable.mem_keys_of_mem he)) (le_trans hle hle')

/-- A model with two properties. -/
def fooSteps : List Event :=
  [.construct (.model "Foo"), .construct (.property ⟨25⟩ "foo_prop" ⟨4⟩ false),
    .construct (.property ⟨25⟩ "bar_prop" ⟨4⟩ false)]

def fooWorkspace : Workspace := fooSteps.foldl after (ofGraph .initial)

theorem casing_roundtrip_foo : ∃ (p : Projection) (t : NameTable),
    ((fooWorkspace.declare "casing.cadl" casingText).2.Reachable Event.Regular ∧
      p.DeclaredFrom casingSource ∧
      (fooWorkspace.declare "casing.cadl" casingText).2.graph.shape ⟨25⟩ = .model (some "Foo") t ∧
      t.keys = ["foo_prop", "bar_prop"]) ∧
    ∃ camel between snake after,
      (fooWorkspace.declare "casing.cadl" casingText).2.tryProject ⟨25⟩ ⟨p.id, .forward⟩ [] =
        (.ok camel, between) ∧
      between.tryProject camel ⟨p.id, .backward⟩ [] = (.ok snake, after) ∧
      (∃ t', between.graph.shape camel = .model (some "Foo") t' ∧
        t'.keys = t.keys.map Casing.camel.apply) ∧
      (∃ t', after.graph.shape snake = .model (some "Foo") t' ∧ t'.keys = t.keys) ∧
      after.graph.structurallyEqual snake ⟨25⟩ = true := by
  have hreachable : (fooWorkspace.declare "casing.cadl" casingText).2.Reachable Event.Regular := by
    have hsteps : fooWorkspace.Reachable Event.Regular := by
      refine Reachable.start.steps (fun e he => ?_) (by decide +kernel)
      simp only [fooSteps, List.mem_cons, List.not_mem_nil, or_false] at he
      rcases he with rfl | rfl | rfl <;> trivial
    have hdeclared := hsteps.step (.declare "casing.cadl" casingText) trivial fun _ h => nomatch h
    rwa [after] at hdeclared
  obtain ⟨p, hdeclare, hsource, hid, -⟩ := fooWorkspace.declare_of_hasForms (by decide +kernel)
    hasForms_casingSource (by decide +kernel)
  have hnames : ∀ n ∈ ["foo_prop", "bar_prop"], ∃ words, Words.Recoverable words ∧
      n = Words.snakeName words := by
    have hfoo : Words.SnakeWord ['f', 'o', 'o'] := .mk (by decide) (by simp)
    have hbar : Words.SnakeWord ['b', 'a', 'r'] := .mk (by decide) (by simp)
    have hprop : Words.SnakeWord ['p', 'r', 'o', 'p'] := .mk (by decide) (by simp)
    have hpair : ∀ {w v : List Char}, Words.SnakeWord w → Words.SnakeWord v →
        Words.Recoverable [w, v] := fun hw hv =>
      ⟨List.forall_mem_cons.mpr ⟨hw, List.forall_mem_singleton.mpr hv⟩, .singleton _⟩
    exact List.forall_mem_cons.mpr ⟨⟨_, hpair hfoo hprop, by decide +kernel⟩,
      List.forall_mem_singleton.mpr ⟨_, hpair hbar hprop, by decide +kernel⟩⟩
  have hshape : (fooWorkspace.withProjections [p]).graph.shape ⟨25⟩ = .model (some "Foo")
      ⟨[("foo_prop", ⟨26⟩), ("bar_prop", ⟨27⟩)], by decide⟩ := by
    rw [graph_withProjections]
    decide +kernel
  have hdepth : 1 ≤ (fooWorkspace.withProjections [p]).options.maxDepth := by
    rw [options_withProjections]
    decide +kernel
  rw [hdeclare] at hreachable ⊢
  exact ⟨p, _, ⟨hreachable, hsource, hshape, rfl⟩,
    casing_roundtrip hreachable hdepth (get?_withProjections hid) hsource hshape hnames⟩

end Workspace

end SchemaProjection
