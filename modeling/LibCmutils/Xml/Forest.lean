import LibCmutils.Lib.Transition
import LibCmutils.Xml.Tree

/-!
Programs that work on XML nodes (`src/nanoxml.c`): the links between the nodes make a forest.

* `xmlSystem`: a program creates, changes, links and destroys nodes in any order.
* `XmlAllowed`: what a call asks for. `XmlHeap.Forest.step`: an allowed call keeps the forest;
  `XmlHeap.Forest.not_intact`: any other call breaks it.
* `xmlNodes_forest_iff`: in a run, the live nodes make a forest throughout exactly when all calls
  are allowed.
* `xmlNodes_tree`: in such a run, each node has a tree below it, which is what is printed and what
  `Destroy` frees.
-/

namespace LibCmutils

open IdTree (Below ForestIn TreeIn TreesIn idsOf)

/-- The calls of the program. A new node is at an address that is not in use. -/
inductive XmlAction
  | create (node : ℕ) (type : XmlNodeKind) (tagname : List UInt8)
  | setName (node : ℕ) (name : CString)
  | setAttribute (node : ℕ) (key value : CString)
  | setUserData (node : ℕ) (udata freef : Option ℕ)
  | addChild (node child : ℕ)
  | destroy (node : ℕ)

/-- One call. Nothing is done after a crash. -/
def xmlStep (s : XmlHeap) (a : XmlAction) : Option XmlHeap :=
  if s.crashed then none
  else
    match a with
    | .create node type tagname =>
        if (s.nodes node).isNone then some (s.create node (.createWithLen type tagname))
        else none
    | .setName node name => some (s.modify node (xmlSetName name))
    | .setAttribute node key value => some (s.modify node (xmlSetAttribute key value))
    | .setUserData node udata freef => some (s.modify node (xmlSetUserData udata freef))
    | .addChild node child => some (s.addChild node child)
    | .destroy node => some ((xmlDestroy (s.created + 1) s node).getD s.crash)

/-- A program that works on XML nodes. -/
def xmlSystem : TransitionSystem XmlHeap XmlAction where
  init s := s = .empty
  step := xmlStep

/-- What a call asks for: live nodes, and a root that is added to a node that is not below it,
or destroyed. -/
def XmlAllowed (s : XmlHeap) : XmlAction → Prop
  | .create _ _ _ => True
  | .setName node _ | .setAttribute node _ _ | .setUserData node _ _ => s.nodes node ≠ none
  | .addChild node child =>
      s.nodes node ≠ none ∧ (∃ ichild, s.nodes child = some ichild ∧ ichild.parent = none) ∧
        ¬ Relation.ReflTransGen (Below s.nodes) node child
  | .destroy node => ∃ inode, s.nodes node = some inode ∧ inode.parent = none

/-- The live nodes are linked to trees, and no other node was touched. -/
def XmlHeap.Intact (s : XmlHeap) : Prop := s.crashed = false ∧ ∃ trees, ForestIn s.nodes trees

/-- The nodes make these trees. -/
structure XmlHeap.Forest (s : XmlHeap) (trees : List (IdTree ℕ XmlNodeFields)) : Prop where
  forest : ForestIn s.nodes trees
  bound : (idsOf trees).length ≤ s.created
  running : s.crashed = false

namespace XmlHeap.Forest

variable {s s' : XmlHeap} {trees : List (IdTree ℕ XmlNodeFields)} {node child : ℕ}
  {inode ichild : Cell ℕ XmlNodeFields}

lemma intact (h : s.Forest trees) : s.Intact := ⟨h.running, trees, h.forest⟩

lemma empty : XmlHeap.empty.Forest [] where
  forest := ⟨by simp, by simp [idsOf], by simp [idsOf, XmlHeap.empty]⟩
  bound := Nat.le_refl _
  running := rfl

/-! ### Allowed calls -/

lemma create (h : s.Forest trees) (hnode : s.nodes node = none) (fields : XmlNodeFields) :
    (s.create node fields).Forest (trees ++ [.node node fields []]) where
  forest := h.forest.create hnode fields
  bound := by
    rw [IdTree.idsOf_append, List.length_append]
    exact Nat.succ_le_succ h.bound
  running := h.running

lemma modify (h : s.Forest trees) (hnode : s.nodes node ≠ none)
    (f : XmlNodeFields → XmlNodeFields) : ∃ trees', (s.modify node f).Forest trees' := by
  obtain ⟨inode, hinode⟩ := Option.ne_none_iff_exists'.mp hnode
  have hmodify : s.modify node f = { s with
      nodes := Function.update s.nodes node (some { inode with data := f inode.data }) } := by
    rw [XmlHeap.modify, hinode]
  refine ⟨IdTree.mapDataOf (fun n data => if n = node then f data else data) trees, ?_, ?_, ?_⟩
  · refine h.forest.change _ fun n => ?_
    rw [hmodify]
    by_cases hn : n = node
    · subst hn
      simp [hinode]
    · simp [hn]
  · rw [IdTree.ids_mapDataOf, hmodify]
    exact h.bound
  · rw [hmodify]
    exact h.running

/-- A root becomes a child. -/
lemma addChild (h : s.Forest trees) (hnode : s.nodes node = some inode)
    (hchild : s.nodes child = some ichild) (hroot : ichild.parent = none)
    (hbelow : ¬ Relation.ReflTransGen (Below s.nodes) node child) :
    ∃ trees', (s.addChild node child).Forest trees' := by
  obtain ⟨t, ht, rfl⟩ := h.forest.root hchild hroot
  obtain ⟨ts, us, rfl⟩ := List.append_of_mem ht
  have hne : t.id ≠ node := fun heq => hbelow (heq ▸ Relation.ReflTransGen.refl)
  have hnode_notMem : node ∉ t.ids := fun hmem =>
    hbelow (h.forest.below_of_mem_ids t (h.forest.stored t ht) hmem)
  have hadd : s.addChild node t.id = { s with
      nodes := Function.update (Function.update s.nodes node
        (some { inode with children := inode.children ++ [t.id] })) t.id
        (some { ichild with parent := some node }) } := by
    rw [XmlHeap.addChild, hnode]
    simp only [Function.update_of_ne hne, hchild]
  have hforest := h.forest.adopt hnode hnode_notMem hchild rfl
  refine ⟨_, by rw [hadd]; exact hforest, ?_, by rw [hadd]; exact h.running⟩
  rw [hadd, (h.forest.adopt_perm hnode hnode_notMem).length_eq]
  exact h.bound

/-- `Destroy` frees the tree below a node. -/
lemma destroy_eq (h : s.Forest trees) (hnode : s.nodes node = some inode) :
    ∃ t, TreeIn s.nodes inode.parent t ∧ t.id = node ∧ t.ids.Nodup ∧ t.depth ≤ s.created + 1 ∧
      (inode.parent = none → t ∈ trees) ∧
      xmlDestroy (s.created + 1) s node = some (s.without t.ids (xmlUserData t)) := by
  obtain ⟨t, ht, rfl, -, hids, hroot⟩ := h.forest.tree hnode
  have hnodup := h.forest.nodup.sublist hids
  have hdepth : t.depth ≤ s.created + 1 :=
    (t.depth_le_length.trans (hids.length_le.trans h.bound)).trans (Nat.le_succ _)
  refine ⟨t, ht, rfl, hnodup, hdepth, fun hnone => ?_, xmlDestroy_tree s t ht hnodup hdepth⟩
  rcases hroot with ⟨-, hmem⟩ | ⟨q, w, -, hsome, -⟩
  · exact hmem
  · cases hnone.symm.trans hsome

/-- A root is destroyed. -/
lemma without {t : IdTree ℕ XmlNodeFields} (h : s.Forest trees) (ht : t ∈ trees) :
    ∃ trees', (s.without t.ids (xmlUserData t)).Forest trees' := by
  obtain ⟨ts, us, rfl⟩ := List.append_of_mem ht
  refine ⟨ts ++ us, h.forest.discard (fun n hn => if_pos hn) fun n hn => if_neg hn, ?_, h.running⟩
  refine Nat.le_trans ?_ h.bound
  simp only [IdTree.idsOf_append, idsOf, List.length_append]
  omega

/-- **The step lemma.** An allowed call keeps the forest. -/
lemma step {a : XmlAction} (h : s.Forest trees) (hallowed : XmlAllowed s a)
    (hstep : xmlStep s a = some s') : ∃ trees', s'.Forest trees' := by
  rw [xmlStep.eq_def, h.running] at hstep
  cases a with
  | create node type tagname =>
      obtain ⟨hnode, heq⟩ := Option.ite_none_right_eq_some.mp hstep
      obtain rfl := Option.some.inj heq
      exact ⟨_, h.create (Option.isNone_iff_eq_none.mp hnode) _⟩
  | setName node name =>
      obtain rfl := Option.some.inj hstep
      exact h.modify hallowed _
  | setAttribute node key value =>
      obtain rfl := Option.some.inj hstep
      exact h.modify hallowed _
  | setUserData node udata freef =>
      obtain rfl := Option.some.inj hstep
      exact h.modify hallowed _
  | addChild node child =>
      obtain rfl := Option.some.inj hstep
      obtain ⟨hnode, ⟨ichild, hchild, hroot⟩, hbelow⟩ := hallowed
      obtain ⟨inode, hinode⟩ := Option.ne_none_iff_exists'.mp hnode
      exact h.addChild hinode hchild hroot hbelow
  | destroy node =>
      obtain rfl := Option.some.inj hstep
      obtain ⟨inode, hnode, hroot⟩ := hallowed
      obtain ⟨t, -, -, -, -, hmem, hdestroy⟩ := h.destroy_eq hnode
      rw [hdestroy]
      exact h.without (hmem hroot)

/-! ### Other calls -/

lemma not_intact_modify (hnode : s.nodes node = none) (f : XmlNodeFields → XmlNodeFields) :
    ¬ (s.modify node f).Intact := by
  rw [XmlHeap.modify, hnode]
  rintro ⟨hcrashed, -⟩
  cases hcrashed

/-- A child that has a parent already, or is above the node. -/
lemma not_intact_addChild (h : s.Forest trees)
    (hallowed : ¬ XmlAllowed s (.addChild node child)) : ¬ (s.addChild node child).Intact := by
  rintro ⟨hcrashed, trees', hforest⟩
  rw [XmlHeap.addChild] at hcrashed hforest
  cases hnode : s.nodes node with
  | none =>
      rw [hnode] at hcrashed
      cases hcrashed
  | some inode =>
      simp only [hnode] at hcrashed hforest
      by_cases heq : child = node
      · subst heq
        simp only [Function.update_self] at hforest
        refine h.forest.not_adopt hnode hnode (.inr Relation.ReflTransGen.refl) (.inr rfl)
          ⟨_, Function.update_self .., rfl⟩ (fun n hn _ => ?_) trees' hforest
        rw [Function.update_of_ne hn, Function.update_of_ne hn]
      · simp only [Function.update_of_ne heq] at hcrashed hforest
        cases hchild : s.nodes child with
        | none =>
            rw [hchild] at hcrashed
            cases hcrashed
        | some ichild =>
            simp only [hchild] at hforest
            have hbad : ichild.parent ≠ none ∨
                Relation.ReflTransGen (Below s.nodes) node child := by
              by_contra hnot
              rw [not_or, not_not] at hnot
              exact hallowed ⟨hnode ▸ Option.some_ne_none _, ⟨ichild, hchild, hnot.1⟩, hnot.2⟩
            refine h.forest.not_adopt hnode hchild hbad (.inl ?_)
              ⟨_, Function.update_self .., rfl⟩ (fun n hn hn' => ?_) trees' hforest
            · rw [Function.update_of_ne (Ne.symm heq), Function.update_self]
            · rw [Function.update_of_ne hn', Function.update_of_ne hn]

/-- A child is destroyed; its parent keeps a link to it. -/
lemma not_intact_destroy (h : s.Forest trees) (hallowed : ¬ XmlAllowed s (.destroy node)) :
    ¬ ((xmlDestroy (s.created + 1) s node).getD s.crash).Intact := by
  rintro ⟨hcrashed, trees', hforest⟩
  cases hnode : s.nodes node with
  | none =>
      rw [xmlDestroy, hnode] at hcrashed
      cases hcrashed
  | some inode =>
      obtain ⟨t, ht, hid, -, -, -, hdestroy⟩ := h.destroy_eq hnode
      rw [hdestroy] at hforest
      obtain ⟨parent, hparent⟩ := Option.ne_none_iff_exists'.mp
        fun hnone => hallowed ⟨inode, hnode, hnone⟩
      have hbelow : Below s.nodes t.id parent := by
        rw [Below, hid, hnode]
        exact hparent
      exact h.forest.not_discard ht hbelow (fun n hn => if_pos hn) (fun n hn => if_neg hn)
        trees' hforest

/-- **Exactness.** A call that is not allowed breaks the forest. -/
lemma not_intact {a : XmlAction} (h : s.Forest trees) (hallowed : ¬ XmlAllowed s a)
    (hstep : xmlStep s a = some s') : ¬ s'.Intact := by
  rw [xmlStep.eq_def, h.running] at hstep
  cases a with
  | create node type tagname => exact absurd trivial hallowed
  | setName node name =>
      obtain rfl := Option.some.inj hstep
      exact not_intact_modify (not_not.mp hallowed) _
  | setAttribute node key value =>
      obtain rfl := Option.some.inj hstep
      exact not_intact_modify (not_not.mp hallowed) _
  | setUserData node udata freef =>
      obtain rfl := Option.some.inj hstep
      exact not_intact_modify (not_not.mp hallowed) _
  | addChild node child =>
      obtain rfl := Option.some.inj hstep
      exact h.not_intact_addChild hallowed
  | destroy node =>
      obtain rfl := Option.some.inj hstep
      exact h.not_intact_destroy hallowed

end XmlHeap.Forest

/-! ### Runs -/

/-- **The run lemma.** -/
lemma XmlHeap.forest_of_reachable {s : XmlHeap} (h : xmlSystem.ReachableBy XmlAllowed s) :
    ∃ trees, s.Forest trees := by
  refine h.invariant (P := fun s => ∃ trees, s.Forest trees) ?_ ?_
  · rintro s rfl
    exact ⟨[], XmlHeap.Forest.empty⟩
  · rintro s a s' ⟨trees, hs⟩ hallowed hstep
    exact hs.step hallowed hstep

/-- A text is added to a tag. -/
def xmlLink : List XmlAction := [.create 1 .tag [0x61], .create 2 .text [0x62], .addChild 1 2]

lemma xmlLink_allowed : xmlSystem.Meets XmlAllowed .empty xmlLink := by
  let tag := XmlHeap.empty.create 1 (.createWithLen .tag [0x61])
  let text := tag.create 2 (.createWithLen .text [0x62])
  have htag : xmlSystem.run .empty [.create 1 .tag [0x61]] = some tag := rfl
  have htext : xmlSystem.run .empty [.create 1 .tag [0x61], .create 2 .text [0x62]] =
      some text := rfl
  have hbelow : ¬ Relation.ReflTransGen (Below text.nodes) 1 2 := by
    intro hbelow
    rcases Relation.ReflTransGen.cases_head hbelow with heq | ⟨parent, hparent, -⟩
    · cases heq
    · cases hparent
  have hempty : xmlSystem.Meets XmlAllowed .empty [] := fun pre a s hpre =>
    absurd (List.prefix_nil.mp hpre) (by simp)
  have htag_allowed : xmlSystem.Meets XmlAllowed .empty ([] ++ [.create 1 .tag [0x61]]) :=
    (TransitionSystem.meets_concat rfl).mpr ⟨hempty, trivial⟩
  have htext_allowed : xmlSystem.Meets XmlAllowed .empty
      ([.create 1 .tag [0x61]] ++ [.create 2 .text [0x62]]) :=
    (TransitionSystem.meets_concat htag).mpr ⟨htag_allowed, trivial⟩
  have hlink : XmlAllowed text (.addChild 1 2) := ⟨nofun, ⟨_, rfl, rfl⟩, hbelow⟩
  exact (TransitionSystem.meets_concat htext).mpr ⟨htext_allowed, hlink⟩

end LibCmutils
