import Mathlib.Data.List.Nodup
import Mathlib.Data.List.Perm.Basic
import Mathlib.Logic.Relation
import Mathlib.Order.Nat

/-!
Trees that are built of linked cells.

* `IdTree`: a tree whose nodes have a name and data. `ids`: the names, parents first.
* `Cell`: what is stored under a name, with the names of the children and of the parent.
  `TreeIn`: a tree is stored in a memory, below a given parent.
* `ForestIn`: a memory holds trees, each cell is a node of one of them. `mem_children_iff`: the
  links to the children and to the parents mirror each other; `not_cycle`: no cell is below
  itself.
* `ForestIn.create`, `change`, `adopt`, `discard`: what a new root, new data, a root that becomes
  the last child of a node of another tree and the removal of a tree do to a forest.
  `not_adopt`, `not_discard`: the same operations on other cells do not leave a forest.
-/

namespace LibCmutils

universe u v
variable {ι : Type u} {α : Type v}

/-- A tree whose nodes have names. -/
inductive IdTree (ι : Type u) (α : Type v) where
  | node (id : ι) (data : α) (children : List (IdTree ι α))

/-- What is stored under a name. -/
structure Cell (ι : Type u) (α : Type v) where
  data : α
  children : List ι
  parent : Option ι

namespace IdTree

/-- The name of the root. -/
def id : IdTree ι α → ι
  | .node id _ _ => id

/-- The trees below the root. -/
def children : IdTree ι α → List (IdTree ι α)
  | .node _ _ children => children

mutual

/-- The names, parents first. -/
def ids : IdTree ι α → List ι
  | .node id _ children => id :: idsOf children

/-- The names in some trees. -/
def idsOf : List (IdTree ι α) → List ι
  | [] => []
  | t :: ts => t.ids ++ idsOf ts

end

mutual

/-- The number of nodes on the longest way down. -/
def depth : IdTree ι α → ℕ
  | .node _ _ children => depthOf children + 1

/-- The greatest depth of some trees. -/
def depthOf : List (IdTree ι α) → ℕ
  | [] => 0
  | t :: ts => max t.depth (depthOf ts)

end

mutual

/-- The tree is stored in the memory, below the parent. -/
def TreeIn (m : ι → Option (Cell ι α)) (parent : Option ι) : IdTree ι α → Prop
  | .node id data children =>
      m id = some ⟨data, children.map IdTree.id, parent⟩ ∧ TreesIn m (some id) children

/-- The trees are stored in the memory, below the parent. -/
def TreesIn (m : ι → Option (Cell ι α)) (parent : Option ι) : List (IdTree ι α) → Prop
  | [] => True
  | t :: ts => TreeIn m parent t ∧ TreesIn m parent ts

end

section Ids

variable {t : IdTree ι α} {ts : List (IdTree ι α)} {m m' : ι → Option (Cell ι α)}
  {parent parent' : Option ι} {n c : ι}

@[simp] lemma idsOf_append (ts us : List (IdTree ι α)) :
    idsOf (ts ++ us) = idsOf ts ++ idsOf us := by
  induction ts with
  | nil => rfl
  | cons t ts ih => simp [idsOf, ih]

lemma id_mem_ids (t : IdTree ι α) : t.id ∈ t.ids := by
  cases t with
  | node id data children => simp [ids, IdTree.id]

lemma mem_idsOf : n ∈ idsOf ts ↔ ∃ t ∈ ts, n ∈ t.ids := by
  induction ts with
  | nil => simp [idsOf]
  | cons t ts ih => simp [idsOf, ih]

lemma treesIn_iff : TreesIn m parent ts ↔ ∀ t ∈ ts, TreeIn m parent t := by
  induction ts with
  | nil => simp [TreesIn]
  | cons t ts ih => simp [TreesIn, ih]

lemma depth_lt {child : IdTree ι α} (h : child ∈ ts) : child.depth ≤ depthOf ts := by
  induction ts with
  | nil => cases h
  | cons t ts ih =>
      rw [depthOf]
      rcases List.mem_cons.mp h with rfl | h
      · exact Nat.le_max_left _ _
      · exact (ih h).trans (Nat.le_max_right _ _)

mutual

/-- A way down passes by different nodes. -/
lemma depth_le_length (t : IdTree ι α) : t.depth ≤ t.ids.length := by
  match t with
  | .node id data children =>
      rw [depth, ids, List.length_cons]
      exact Nat.succ_le_succ (depthOf_le_length children)

lemma depthOf_le_length (ts : List (IdTree ι α)) : depthOf ts ≤ (idsOf ts).length := by
  match ts with
  | [] => exact Nat.le_refl _
  | t :: ts =>
      have hhead := depth_le_length t
      have htail := depthOf_le_length ts
      rw [depthOf, idsOf, List.length_append]
      omega

end

lemma map_id_sublist (ts : List (IdTree ι α)) : (ts.map IdTree.id).Sublist (idsOf ts) := by
  induction ts with
  | nil => exact List.Sublist.refl _
  | cons t ts ih =>
      cases t with
      | node id data children =>
          rw [List.map_cons, idsOf, ids, List.cons_append]
          exact (ih.trans (List.sublist_append_right _ _)).cons_cons _

mutual

/-- A tree is stored that has the cells of its nodes. -/
lemma TreeIn.congr {parent : Option ι} (t : IdTree ι α) (h : TreeIn m parent t)
    (hm : ∀ n ∈ t.ids, m' n = m n) : TreeIn m' parent t := by
  match t with
  | .node id data children =>
      rw [TreeIn] at h ⊢
      refine ⟨(hm id (by simp [ids])).trans h.1, TreesIn.congr children h.2 fun n hn => hm n ?_⟩
      rw [ids]
      exact List.mem_cons_of_mem _ hn

lemma TreesIn.congr {parent : Option ι} (ts : List (IdTree ι α)) (h : TreesIn m parent ts)
    (hm : ∀ n ∈ idsOf ts, m' n = m n) : TreesIn m' parent ts := by
  match ts with
  | [] => trivial
  | t :: ts =>
      rw [TreesIn] at h ⊢
      exact ⟨TreeIn.congr t h.1 fun n hn => hm n (by simp [idsOf, hn]),
        TreesIn.congr ts h.2 fun n hn => hm n (by simp [idsOf, hn])⟩

end

mutual

/-- Each node of a tree is the root of a tree of its own, below its parent. -/
lemma TreeIn.subtree {parent : Option ι} (t : IdTree ι α) (h : TreeIn m parent t)
    (hn : n ∈ t.ids) :
    ∃ parent' u, TreeIn m parent' u ∧ u.id = n ∧ u.ids.Sublist t.ids ∧
      (parent' = parent ∧ u = t ∨
        ∃ q w, TreeIn m q w ∧ w.id ∈ t.ids ∧ parent' = some w.id ∧ u ∈ w.children) := by
  match t with
  | .node id data children =>
      rw [ids] at hn
      rcases List.mem_cons.mp hn with rfl | hn
      · exact ⟨parent, .node n data children, h, rfl, List.Sublist.refl _, .inl ⟨rfl, rfl⟩⟩
      · have hchildren := (by rwa [TreeIn] at h : _ ∧ TreesIn m (some id) children).2
        obtain ⟨parent', u, hu, hid, hids, hparent⟩ := TreesIn.subtree children hchildren hn
        refine ⟨parent', u, hu, hid, ?_, .inr ?_⟩
        · rw [ids]
          exact hids.cons _
        · rcases hparent with ⟨rfl, hmem⟩ | ⟨q, w, hw, hwid, hparent, hmem⟩
          · exact ⟨parent, .node id data children, h, by simp [ids, IdTree.id], rfl, hmem⟩
          · exact ⟨q, w, hw, by simp [ids, hwid], hparent, hmem⟩

lemma TreesIn.subtree {parent : Option ι} (ts : List (IdTree ι α)) (h : TreesIn m parent ts)
    (hn : n ∈ idsOf ts) :
    ∃ parent' u, TreeIn m parent' u ∧ u.id = n ∧ u.ids.Sublist (idsOf ts) ∧
      (parent' = parent ∧ u ∈ ts ∨
        ∃ q w, TreeIn m q w ∧ w.id ∈ idsOf ts ∧ parent' = some w.id ∧ u ∈ w.children) := by
  match ts with
  | [] => cases hn
  | t :: ts =>
      rw [TreesIn] at h
      rw [idsOf] at hn
      rcases List.mem_append.mp hn with hn | hn
      · obtain ⟨parent', u, hu, hid, hids, hparent⟩ := TreeIn.subtree t h.1 hn
        refine ⟨parent', u, hu, hid, ?_, ?_⟩
        · rw [idsOf]
          exact hids.trans (List.sublist_append_left _ _)
        · rcases hparent with ⟨rfl, rfl⟩ | ⟨q, w, hw, hwid, hparent, hmem⟩
          · exact .inl ⟨rfl, List.mem_cons_self ..⟩
          · exact .inr ⟨q, w, hw, by simp [idsOf, hwid], hparent, hmem⟩
      · obtain ⟨parent', u, hu, hid, hids, hparent⟩ := TreesIn.subtree ts h.2 hn
        refine ⟨parent', u, hu, hid, ?_, ?_⟩
        · rw [idsOf]
          exact hids.trans (List.sublist_append_right _ _)
        · rcases hparent with ⟨rfl, hmem⟩ | ⟨q, w, hw, hwid, hparent, hmem⟩
          · exact .inl ⟨rfl, List.mem_cons_of_mem _ hmem⟩
          · exact .inr ⟨q, w, hw, by simp [idsOf, hwid], hparent, hmem⟩

end

mutual

/-- A memory stores at most one tree under a name. -/
lemma TreeIn.unique {parent parent' : Option ι} (t u : IdTree ι α) (ht : TreeIn m parent t)
    (hu : TreeIn m parent' u) (hid : t.id = u.id) : t = u := by
  match t, u with
  | .node id data children, .node id' data' children' =>
      obtain rfl : id = id' := hid
      rw [TreeIn] at ht hu
      have hcell := Option.some.inj (ht.1.symm.trans hu.1)
      obtain ⟨rfl, hchildren, -⟩ := (Cell.mk.injEq ..).mp hcell
      rw [TreesIn.unique children children' ht.2 hu.2 hchildren]

lemma TreesIn.unique {parent parent' : Option ι} (ts us : List (IdTree ι α))
    (hts : TreesIn m parent ts)
    (hus : TreesIn m parent' us) (hid : ts.map IdTree.id = us.map IdTree.id) : ts = us := by
  match ts, us with
  | [], [] => rfl
  | [], u :: us => cases hid
  | t :: ts, [] => cases hid
  | t :: ts, u :: us =>
      rw [TreesIn] at hts hus
      rw [List.map_cons, List.map_cons] at hid
      obtain ⟨hhead, htail⟩ := List.cons.inj hid
      rw [TreeIn.unique t u hts.1 hus.1 hhead, TreesIn.unique ts us hts.2 hus.2 htail]

end

/-- The cell of the root. -/
lemma TreeIn.cell (h : TreeIn m parent t) :
    ∃ data, m t.id = some ⟨data, t.children.map IdTree.id, parent⟩ := by
  cases t with
  | node id data children =>
      rw [TreeIn] at h
      exact ⟨data, h.1⟩

/-- The trees below the root. -/
lemma TreeIn.child {u : IdTree ι α} (h : TreeIn m parent t) (hu : u ∈ t.children) :
    TreeIn m (some t.id) u := by
  cases t with
  | node id data children =>
      rw [TreeIn] at h
      exact treesIn_iff.mp h.2 u hu

lemma filter_eq_singleton [DecidableEq ι] {names : List ι} (h : names.Nodup) (hn : n ∈ names) :
    names.filter (· = n) = [n] := by
  have hcount : names.count n = 1 := List.count_eq_one_of_mem h hn
  have hfilter : names.filter (· == n) = [n] := by
    rw [List.filter_beq, hcount]
    rfl
  simpa only [beq_eq_decide] using hfilter

lemma depth_child {u : IdTree ι α} (hu : u ∈ t.children) : u.depth < t.depth := by
  cases t with
  | node id data children =>
      rw [depth]
      exact Nat.lt_succ_of_le (depth_lt hu)

end Ids

/-! ### Changed trees -/

mutual

/-- The tree with other data at its nodes. -/
def mapData (f : ι → α → α) : IdTree ι α → IdTree ι α
  | .node id data children => .node id (f id data) (mapDataOf f children)

/-- The trees with other data at their nodes. -/
def mapDataOf (f : ι → α → α) : List (IdTree ι α) → List (IdTree ι α)
  | [] => []
  | t :: ts => mapData f t :: mapDataOf f ts

end

mutual

/-- The tree with `c` as the last child of the node `p`. -/
def adopt [DecidableEq ι] (p : ι) (c : IdTree ι α) : IdTree ι α → IdTree ι α
  | .node id data children =>
      .node id data (adoptOf p c children ++ if id = p then [c] else [])

/-- The trees with `c` as the last child of the node `p`. -/
def adoptOf [DecidableEq ι] (p : ι) (c : IdTree ι α) : List (IdTree ι α) → List (IdTree ι α)
  | [] => []
  | t :: ts => adopt p c t :: adoptOf p c ts

end

section Changed

variable {m m' : ι → Option (Cell ι α)}

lemma id_mapData (f : ι → α → α) (t : IdTree ι α) : (mapData f t).id = t.id := by
  cases t
  rfl

lemma map_id_mapDataOf (f : ι → α → α) (ts : List (IdTree ι α)) :
    (mapDataOf f ts).map IdTree.id = ts.map IdTree.id := by
  induction ts with
  | nil => rfl
  | cons t ts ih => rw [mapDataOf, List.map_cons, List.map_cons, ih, id_mapData]

mutual

@[simp] lemma ids_mapData (f : ι → α → α) (t : IdTree ι α) : (mapData f t).ids = t.ids := by
  match t with
  | .node id data children => rw [mapData, ids, ids, ids_mapDataOf f children]

@[simp] lemma ids_mapDataOf (f : ι → α → α) (ts : List (IdTree ι α)) :
    idsOf (mapDataOf f ts) = idsOf ts := by
  match ts with
  | [] => rfl
  | t :: ts => rw [mapDataOf, idsOf, idsOf, ids_mapData f t, ids_mapDataOf f ts]

end

mutual

lemma TreeIn.mapData {f : ι → α → α} {parent : Option ι} (t : IdTree ι α)
    (h : TreeIn m parent t)
    (hm : ∀ n ∈ t.ids, m' n = (m n).map fun cell => { cell with data := f n cell.data }) :
    TreeIn m' parent (mapData f t) := by
  match t with
  | .node id data children =>
      rw [TreeIn] at h
      rw [IdTree.mapData, TreeIn, map_id_mapDataOf]
      refine ⟨by rw [hm id (by simp [ids]), h.1]; rfl, TreesIn.mapData children h.2 fun n hn =>
        hm n ?_⟩
      rw [ids]
      exact List.mem_cons_of_mem _ hn

lemma TreesIn.mapData {f : ι → α → α} {parent : Option ι} (ts : List (IdTree ι α))
    (h : TreesIn m parent ts)
    (hm : ∀ n ∈ idsOf ts, m' n = (m n).map fun cell => { cell with data := f n cell.data }) :
    TreesIn m' parent (mapDataOf f ts) := by
  match ts with
  | [] => trivial
  | t :: ts =>
      rw [TreesIn] at h
      rw [mapDataOf, TreesIn]
      exact ⟨TreeIn.mapData t h.1 fun n hn => hm n (by simp [idsOf, hn]),
        TreesIn.mapData ts h.2 fun n hn => hm n (by simp [idsOf, hn])⟩

end

variable [DecidableEq ι] {p : ι} {c : IdTree ι α}

lemma id_adopt (p : ι) (c t : IdTree ι α) : (adopt p c t).id = t.id := by
  cases t
  rfl

lemma map_id_adoptOf (p : ι) (c : IdTree ι α) (ts : List (IdTree ι α)) :
    (adoptOf p c ts).map IdTree.id = ts.map IdTree.id := by
  induction ts with
  | nil => rfl
  | cons t ts ih => rw [adoptOf, List.map_cons, List.map_cons, ih, id_adopt]

mutual

/-- The names of `c` are added once for each node `p`. -/
lemma ids_adopt_perm (p : ι) (c t : IdTree ι α) :
    (adopt p c t).ids.Perm (t.ids ++ (t.ids.filter (· = p)).flatMap fun _ => c.ids) := by
  match t with
  | .node id data children =>
      have hchildren := ids_adoptOf_perm p c children
      have hlast : idsOf (if id = p then [c] else []) = if id = p then c.ids else [] := by
        split_ifs <;> simp [idsOf]
      rw [adopt, ids, ids, idsOf_append, hlast, List.cons_append]
      refine List.Perm.cons _ ?_
      by_cases hid : id = p
      · rw [if_pos hid, List.filter_cons_of_pos (by simpa using hid), List.flatMap_cons]
        refine (hchildren.append_right _).trans ?_
        rw [List.append_assoc]
        exact List.perm_append_comm.append_left _
      · rw [if_neg hid, List.filter_cons_of_neg (by simpa using hid), List.append_nil]
        exact hchildren

lemma ids_adoptOf_perm (p : ι) (c : IdTree ι α) (ts : List (IdTree ι α)) :
    (idsOf (adoptOf p c ts)).Perm
      (idsOf ts ++ ((idsOf ts).filter (· = p)).flatMap fun _ => c.ids) := by
  match ts with
  | [] => exact List.Perm.refl _
  | t :: ts =>
      rw [adoptOf, idsOf, idsOf, List.filter_append, List.flatMap_append, List.append_assoc]
      refine ((ids_adopt_perm p c t).append (ids_adoptOf_perm p c ts)).trans ?_
      rw [List.append_assoc]
      refine List.Perm.append_left _ ?_
      exact List.perm_append_comm_assoc _ _ _

end

mutual

lemma TreeIn.adopt {parent : Option ι} (t : IdTree ι α) (h : TreeIn m parent t)
    (hc : TreeIn m' (some p) c) (hother : ∀ n ∈ t.ids, n ≠ p → m' n = m n)
    (hself : ∀ cell, m p = some cell →
      m' p = some { cell with children := cell.children ++ [c.id] }) :
    TreeIn m' parent (adopt p c t) := by
  match t with
  | .node id data children =>
      rw [TreeIn] at h
      have hchildren := TreesIn.adopt children h.2 hc
        (fun n hn => hother n (by rw [ids]; exact List.mem_cons_of_mem _ hn)) hself
      rw [IdTree.adopt, TreeIn, List.map_append, map_id_adoptOf]
      by_cases hid : id = p
      · subst hid
        rw [if_pos rfl]
        refine ⟨hself _ h.1, treesIn_iff.mpr fun u hu => ?_⟩
        rcases List.mem_append.mp hu with hu | hu
        · exact treesIn_iff.mp hchildren u hu
        · exact List.mem_singleton.mp hu ▸ hc
      · rw [if_neg hid, List.map_nil, List.append_nil, List.append_nil]
        exact ⟨(hother id (by simp [ids]) hid).trans h.1, hchildren⟩

lemma TreesIn.adopt {parent : Option ι} (ts : List (IdTree ι α)) (h : TreesIn m parent ts)
    (hc : TreeIn m' (some p) c) (hother : ∀ n ∈ idsOf ts, n ≠ p → m' n = m n)
    (hself : ∀ cell, m p = some cell →
      m' p = some { cell with children := cell.children ++ [c.id] }) :
    TreesIn m' parent (adoptOf p c ts) := by
  match ts with
  | [] => trivial
  | t :: ts =>
      rw [TreesIn] at h
      rw [adoptOf, TreesIn]
      exact ⟨TreeIn.adopt t h.1 hc (fun n hn => hother n (by simp [idsOf, hn])) hself,
        TreesIn.adopt ts h.2 hc (fun n hn => hother n (by simp [idsOf, hn])) hself⟩

end

end Changed

/-! ### Forests -/

/-- The memory holds these trees and nothing else. -/
structure ForestIn (m : ι → Option (Cell ι α)) (trees : List (IdTree ι α)) : Prop where
  stored : ∀ t ∈ trees, TreeIn m none t
  nodup : (idsOf trees).Nodup
  mem_iff : ∀ n, n ∈ idsOf trees ↔ m n ≠ none

/-- The cell is directly below the other one, by its own link. -/
def Below (m : ι → Option (Cell ι α)) (c p : ι) : Prop := (m c).bind Cell.parent = some p

namespace ForestIn

variable {m m' : ι → Option (Cell ι α)} {trees : List (IdTree ι α)} {n c p : ι}
  {cell : Cell ι α}

/-- Each cell is the root of a tree; its link leads to the tree that this one is a child of. -/
lemma tree (h : ForestIn m trees) (hn : m n = some cell) :
    ∃ u, TreeIn m cell.parent u ∧ u.id = n ∧ cell.children = u.children.map IdTree.id ∧
      u.ids.Sublist (idsOf trees) ∧
      (cell.parent = none ∧ u ∈ trees ∨
        ∃ q w, TreeIn m q w ∧ cell.parent = some w.id ∧ u ∈ w.children) := by
  obtain ⟨parent, u, hu, rfl, hids, hparent⟩ := TreesIn.subtree trees (treesIn_iff.mpr h.stored)
    ((h.mem_iff n).mpr (hn ▸ Option.some_ne_none _))
  obtain ⟨data, hcell⟩ := hu.cell
  obtain rfl := Option.some.inj (hn.symm.trans hcell)
  refine ⟨u, hu, rfl, rfl, hids, ?_⟩
  exact hparent.imp_right fun ⟨q, w, hw, _, hparent, hmem⟩ => ⟨q, w, hw, hparent, hmem⟩

/-- A cell without a parent is the root of one of the trees. -/
lemma root (h : ForestIn m trees) (hn : m n = some cell) (hparent : cell.parent = none) :
    ∃ t ∈ trees, t.id = n := by
  obtain ⟨u, -, hid, -, -, hroot⟩ := h.tree hn
  rcases hroot with ⟨-, hmem⟩ | ⟨q, w, -, hsome, -⟩
  · exact ⟨u, hmem, hid⟩
  · cases hparent.symm.trans hsome

/-- The links to the children and to the parents mirror each other. -/
lemma mem_children_iff (h : ForestIn m trees) (hp : m p = some cell) :
    c ∈ cell.children ↔ Below m c p := by
  obtain ⟨u, hu, rfl, hchildren, -, -⟩ := h.tree hp
  rw [hchildren]
  constructor
  · intro hc
    obtain ⟨w, hw, rfl⟩ := List.mem_map.mp hc
    obtain ⟨data', hw'⟩ := (hu.child hw).cell
    rw [Below, hw']
    rfl
  · intro hc
    obtain ⟨child, hchild, hparent⟩ := Option.bind_eq_some_iff.mp hc
    obtain ⟨v, hv, rfl, -, -, hroot⟩ := h.tree hchild
    rcases hroot with ⟨hnone, -⟩ | ⟨q, w, hw, hid, hmem⟩
    · cases hnone.symm.trans hparent
    · obtain rfl := TreeIn.unique u w hu hw (Option.some.inj (hparent.symm.trans hid))
      exact List.mem_map_of_mem hmem

/-- The parent of a cell is stored. -/
lemma parent_stored (h : ForestIn m trees) (hc : Below m c p) : ∃ cell, m p = some cell := by
  obtain ⟨child, hchild, hparent⟩ := Option.bind_eq_some_iff.mp hc
  obtain ⟨u, -, -, -, -, hroot⟩ := h.tree hchild
  rcases hroot with ⟨hnone, -⟩ | ⟨q, w, hw, hid, -⟩
  · cases hnone.symm.trans hparent
  · obtain ⟨data, hcell⟩ := hw.cell
    exact ⟨_, (Option.some.inj (hparent.symm.trans hid)) ▸ hcell⟩

/-- No cell is twice among the children. -/
lemma children_nodup (h : ForestIn m trees) (hp : m p = some cell) : cell.children.Nodup := by
  obtain ⟨u, -, -, hchildren, hids, -⟩ := h.tree hp
  have hnodup := h.nodup.sublist hids
  cases u with
  | node id data children =>
      rw [ids] at hnodup
      rw [hchildren]
      exact (List.nodup_cons.mp hnodup).2.sublist (map_id_sublist children)

/-- What is below a cell is in its tree. -/
lemma mem_ids_of_below (h : ForestIn m trees) {parent : Option ι} {u : IdTree ι α}
    (hu : TreeIn m parent u) (hb : Relation.ReflTransGen (Below m) n u.id) : n ∈ u.ids := by
  induction hb using Relation.ReflTransGen.head_induction_on with
  | refl => exact u.id_mem_ids
  | head hstep _ ih =>
      obtain ⟨parent', w, hw, hid, hids, -⟩ := TreeIn.subtree u hu ih
      obtain ⟨data, hcell⟩ := hw.cell
      rw [hid] at hcell
      have hmem := (h.mem_children_iff hcell).mpr hstep
      obtain ⟨v, hv, hvid⟩ := List.mem_map.mp hmem
      refine hids.subset ?_
      cases w with
      | node id data children =>
          rw [ids, ← hvid]
          exact List.mem_cons_of_mem _ (mem_idsOf.mpr ⟨v, hv, v.id_mem_ids⟩)

/-- What is in the tree of a cell is below it. -/
lemma below_of_mem_ids (h : ForestIn m trees) {parent : Option ι} (u : IdTree ι α)
    (hu : TreeIn m parent u) (hn : n ∈ u.ids) : Relation.ReflTransGen (Below m) n u.id := by
  induction hdepth : u.depth using Nat.strongRecOn generalizing u parent with
  | ind d ih =>
      obtain ⟨data, hcell⟩ := hu.cell
      match u with
      | .node id data children =>
          rw [ids] at hn
          rcases List.mem_cons.mp hn with rfl | hn
          · exact Relation.ReflTransGen.refl
          · obtain ⟨v, hv, hnv⟩ := mem_idsOf.mp hn
            have hstep : Below m v.id id :=
              (h.mem_children_iff hcell).mp (List.mem_map_of_mem hv)
            have hlt : v.depth < d := hdepth ▸ depth_child (t := .node id data children) hv
            exact (ih _ hlt v (hu.child (t := .node id data children) hv) hnv rfl).tail hstep

/-- No cell is below itself. -/
lemma not_cycle (h : ForestIn m trees) (hpc : Relation.ReflTransGen (Below m) p c) :
    ¬ Below m c p := by
  intro hcp
  obtain ⟨cell, hcell, -⟩ := Option.bind_eq_some_iff.mp hcp
  obtain ⟨u, hu, rfl, -, -, -⟩ := h.tree hcell
  have hp := h.mem_ids_of_below hu hpc
  -- the tree of `p` is in the tree of `c`, and has it as a child
  obtain ⟨parent', w, hw, hwid, hids, -⟩ := TreeIn.subtree u hu hp
  obtain ⟨data, hwcell⟩ := hw.cell
  rw [hwid] at hwcell
  obtain ⟨v, hv, hvid⟩ := List.mem_map.mp ((h.mem_children_iff hwcell).mpr hcp)
  obtain rfl := TreeIn.unique v u (hw.child hv) hu hvid
  have hlen := hids.length_le
  cases w with
  | node id data children =>
      have hsub : v.ids.length ≤ (idsOf children).length := by
        obtain ⟨ts, us, rfl⟩ := List.append_of_mem hv
        simp only [idsOf_append, idsOf, List.length_append]
        omega
      rw [ids, List.length_cons] at hlen
      omega

/-! ### What operations do -/

/-- A new root. -/
lemma create [DecidableEq ι] (h : ForestIn m trees) (hn : m n = none) (data : α) :
    ForestIn (Function.update m n (some ⟨data, [], none⟩)) (trees ++ [.node n data []]) := by
  have hfresh : n ∉ idsOf trees := fun hmem => (h.mem_iff n).mp hmem hn
  refine ⟨fun t ht => ?_, ?_, fun k => ?_⟩
  · rcases List.mem_append.mp ht with hmem | hmem
    · refine TreeIn.congr t (h.stored t hmem) fun k hk => Function.update_of_ne ?_ ..
      intro heq
      exact hfresh (heq ▸ mem_idsOf.mpr ⟨t, hmem, hk⟩)
    · obtain rfl := List.mem_singleton.mp hmem
      simp [TreeIn, TreesIn]
  · have hlast : idsOf [node n data []] = [n] := rfl
    rw [idsOf_append, hlast]
    exact (List.perm_append_singleton n _).nodup_iff.mpr (List.nodup_cons.mpr ⟨hfresh, h.nodup⟩)
  · rw [idsOf_append, List.mem_append, h.mem_iff]
    by_cases hk : k = n
    · simp [hk, idsOf, ids]
    · simp [hk, idsOf, ids]

/-- Other data. -/
lemma change (h : ForestIn m trees) (f : ι → α → α)
    (hm : ∀ n, m' n = (m n).map fun cell => { cell with data := f n cell.data }) :
    ForestIn m' (mapDataOf f trees) := by
  refine ⟨treesIn_iff.mp (TreesIn.mapData trees (treesIn_iff.mpr h.stored) fun n _ => hm n),
    ?_, fun n => ?_⟩
  · rw [ids_mapDataOf]
    exact h.nodup
  · rw [ids_mapDataOf, h.mem_iff, hm]
    cases m n <;> simp

/-- The names stay when a root becomes a child. -/
lemma adopt_perm [DecidableEq ι] {ts us : List (IdTree ι α)} {t : IdTree ι α}
    (h : ForestIn m (ts ++ t :: us)) (hp : m p = some cell) (hpt : p ∉ t.ids) :
    (idsOf (adoptOf p t (ts ++ us))).Perm (idsOf (ts ++ t :: us)) := by
  have hperm : (idsOf (ts ++ t :: us)).Perm (t.ids ++ idsOf (ts ++ us)) := by
    rw [idsOf_append, idsOf, idsOf_append]
    exact List.perm_append_comm_assoc _ _ _
  obtain ⟨-, hnodup, -⟩ := List.nodup_append'.mp (hperm.nodup_iff.mp h.nodup)
  have hpmem : p ∈ idsOf (ts ++ us) := by
    have hmem := hperm.mem_iff.mp ((h.mem_iff p).mpr (hp ▸ Option.some_ne_none _))
    exact (List.mem_append.mp hmem).resolve_left hpt
  have hadopted := ids_adoptOf_perm p t (ts ++ us)
  rw [filter_eq_singleton hnodup hpmem, List.flatMap_singleton] at hadopted
  exact hadopted.trans (List.perm_append_comm.trans hperm.symm)

/-- A root becomes the last child of a node of another tree. -/
lemma adopt [DecidableEq ι] {ts us : List (IdTree ι α)} {t : IdTree ι α} {root : Cell ι α}
    (h : ForestIn m (ts ++ t :: us)) (hp : m p = some cell) (hpt : p ∉ t.ids)
    (hroot : m t.id = some root)
    (hm : m' = Function.update (Function.update m p
      (some { cell with children := cell.children ++ [t.id] })) t.id
      (some { root with parent := some p })) :
    ForestIn m' (adoptOf p t (ts ++ us)) := by
  have hids : idsOf (ts ++ t :: us) = idsOf ts ++ (t.ids ++ idsOf us) := by
    rw [idsOf_append, idsOf]
  have hperm : (idsOf (ts ++ t :: us)).Perm (t.ids ++ idsOf (ts ++ us)) := by
    rw [hids, idsOf_append]
    exact List.perm_append_comm_assoc _ _ _
  obtain ⟨hnodupt, hnodup, hdisjoint⟩ := List.nodup_append'.mp (hperm.nodup_iff.mp h.nodup)
  have hpmem : p ∈ idsOf (ts ++ us) := by
    have hmem := hperm.mem_iff.mp ((h.mem_iff p).mpr (hp ▸ Option.some_ne_none _))
    exact (List.mem_append.mp hmem).resolve_left hpt
  have hpne : p ≠ t.id := fun heq => hpt (heq ▸ t.id_mem_ids)
  have hself : m' p = some { cell with children := cell.children ++ [t.id] } := by
    rw [hm, Function.update_of_ne hpne, Function.update_self]
  have hother : ∀ n, n ≠ p → n ≠ t.id → m' n = m n := fun n hnp hnt => by
    rw [hm, Function.update_of_ne hnt, Function.update_of_ne hnp]
  have htree : TreeIn m' (some p) t := by
    have hstored := h.stored t (by simp)
    match t with
    | .node id data children =>
        rw [TreeIn] at hstored
        obtain rfl := Option.some.inj (hroot.symm.trans hstored.1)
        rw [TreeIn]
        refine ⟨by rw [hm]; exact Function.update_self .., ?_⟩
        rw [ids] at hnodupt hpt
        refine TreesIn.congr children hstored.2 fun n hn => hother n ?_ ?_
        · exact fun heq => hpt (List.mem_cons_of_mem _ (heq ▸ hn))
        · intro heq
          obtain rfl : n = id := heq
          exact (List.nodup_cons.mp hnodupt).1 hn
  have hboth := h.adopt_perm hp hpt
  refine ⟨treesIn_iff.mp (TreesIn.adopt (ts ++ us) (treesIn_iff.mpr fun u hu => ?_) htree
    (fun n hn hnp => hother n hnp ?_) fun cell' hcell' => ?_), hboth.nodup_iff.mpr h.nodup,
    fun n => ?_⟩
  · refine h.stored u ?_
    rcases List.mem_append.mp hu with hu | hu <;> simp [hu]
  · exact fun heq => hdisjoint t.id_mem_ids (heq ▸ hn)
  · rw [hself, Option.some.inj (hp.symm.trans hcell')]
  · rw [hboth.mem_iff, h.mem_iff]
    by_cases hnp : n = p
    · subst hnp
      simp [hself, hp]
    · by_cases hnt : n = t.id
      · subst hnt
        simp [hm, hroot]
      · rw [hother n hnp hnt]

/-- A tree is removed. -/
lemma discard {ts us : List (IdTree ι α)} {t : IdTree ι α} (h : ForestIn m (ts ++ t :: us))
    (hgone : ∀ n ∈ t.ids, m' n = none) (hkept : ∀ n, n ∉ t.ids → m' n = m n) :
    ForestIn m' (ts ++ us) := by
  have hperm : (idsOf (ts ++ t :: us)).Perm (t.ids ++ idsOf (ts ++ us)) := by
    rw [idsOf_append, idsOf, idsOf_append]
    exact List.perm_append_comm_assoc _ _ _
  obtain ⟨-, hnodup, hdisjoint⟩ := List.nodup_append'.mp (hperm.nodup_iff.mp h.nodup)
  have hout : ∀ n ∈ idsOf (ts ++ us), n ∉ t.ids := fun n hn hnt => hdisjoint hnt hn
  refine ⟨fun u hu => ?_, hnodup, fun n => ?_⟩
  · refine TreeIn.congr u (h.stored u ?_) fun n hn => hkept n (hout n (mem_idsOf.mpr ⟨u, hu, hn⟩))
    rcases List.mem_append.mp hu with hu | hu <;> simp [hu]
  · by_cases hn : n ∈ t.ids
    · exact iff_of_false (fun hmem => hout n hmem hn) (by simp [hgone n hn])
    · rw [hkept n hn, ← h.mem_iff, hperm.mem_iff, List.mem_append]
      simp [hn]

/-! ### What is no forest -/

/-- A cell that has a parent already, or that is above the cell it is added to, does not make a
forest when it is added. -/
lemma not_adopt [DecidableEq ι] {child : Cell ι α} (h : ForestIn m trees)
    (hp : m p = some cell) (hc : m c = some child)
    (hbad : child.parent ≠ none ∨ Relation.ReflTransGen (Below m) p c)
    (hself : m' p = some { cell with children := cell.children ++ [c] } ∨ c = p)
    (hchild : ∃ cell', m' c = some cell' ∧ cell'.parent = some p)
    (hother : ∀ n, n ≠ p → n ≠ c → m' n = m n) (trees' : List (IdTree ι α)) :
    ¬ ForestIn m' trees' := by
  intro h'
  have hbelow : Below m' c p := by
    obtain ⟨cell', hcell', hparent⟩ := hchild
    rw [Below, hcell']
    exact hparent
  by_cases hcp : c = p
  · subst hcp
    exact h'.not_cycle Relation.ReflTransGen.refl hbelow
  · have hself := hself.resolve_right hcp
    cases hparent : child.parent with
    | none =>
        -- the way from `p` up to `c` is still there
        have hpc := hbad.resolve_left (fun hne => hne hparent)
        have hstep : ∀ a b, Below m a b → Below m' a b := by
          intro a b hab
          have hac : a ≠ c := by
            rintro rfl
            rw [Below, hc, Option.bind_some, hparent] at hab
            cases hab
          by_cases hap : a = p
          · subst hap
            rw [Below, hp, Option.bind_some] at hab
            rw [Below, hself, Option.bind_some]
            exact hab
          · rw [Below, hother a hap hac]
            exact hab
        exact h'.not_cycle (Relation.ReflTransGen.mono hstep _ _ hpc) hbelow
    | some q =>
        have hcq : Below m c q := by
          rw [Below, hc, Option.bind_some]
          exact hparent
        obtain ⟨cellq, hcellq⟩ := h.parent_stored hcq
        have hmem := (h.mem_children_iff hcellq).mpr hcq
        by_cases hqp : q = p
        · -- twice among the children of `p`
          subst hqp
          obtain rfl := Option.some.inj (hp.symm.trans hcellq)
          have hnodup := h'.children_nodup hself
          exact (List.nodup_append.mp hnodup).2.2 c hmem c (List.mem_singleton.mpr rfl) rfl
        · -- among the children of two cells
          have hqc : q ≠ c := by
            rintro rfl
            exact h.not_cycle Relation.ReflTransGen.refl hcq
          have hcq' := (h'.mem_children_iff ((hother q hqp hqc).trans hcellq)).mp hmem
          exact hqp (Option.some.inj (hcq'.symm.trans hbelow))

/-- The removal of the tree of a cell that has a parent does not leave a forest. -/
lemma not_discard {t : IdTree ι α} {parent : Option ι} (h : ForestIn m trees)
    (ht : TreeIn m parent t) (hbelow : Below m t.id p)
    (hgone : ∀ n ∈ t.ids, m' n = none) (hkept : ∀ n, n ∉ t.ids → m' n = m n)
    (trees' : List (IdTree ι α)) : ¬ ForestIn m' trees' := by
  intro h'
  obtain ⟨cell, hp⟩ := h.parent_stored hbelow
  have hpt : p ∉ t.ids := fun hmem => h.not_cycle (h.below_of_mem_ids t ht hmem) hbelow
  have hcell := (hkept p hpt).trans hp
  have hstep := (h'.mem_children_iff hcell).mp ((h.mem_children_iff hp).mpr hbelow)
  rw [Below, hgone _ t.id_mem_ids] at hstep
  cases hstep

end ForestIn

end IdTree

end LibCmutils
