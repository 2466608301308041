import LibCmutils.Lib.HeapTree
import LibCmutils.Xml.Node
import Mathlib.Logic.Function.Basic

/-!
XML nodes in memory: a program builds, changes, prints and destroys trees
(`CMUTIL_XmlNode`, `src/nanoxml.c`).

* `XmlHeap`: the live nodes by their addresses, each with its fields and its links. A step that
  touches a node that is not live crashes.
* `xmlDestroy`: a node is freed first, then its children one after the other; the links of other
  nodes to it stay. `xmlDestroy_tree`: on a tree it frees each node once.
* `xmlHeapToDocumentPrivate`: the printer, along the links. `xmlHeapToDocumentPrivate_tree`: it
  prints the tree.
* `xmlNodeOf`, `xmlUserData`: what a stored tree is to the printer and to `Destroy`.
-/

namespace LibCmutils

open IdTree (Below ForestIn TreeIn TreesIn idsOf depthOf)

/-- `CMXmlNodeKind`. -/
inductive XmlNodeKind
  | unknown
  | text
  | tag
  deriving DecidableEq

/-- The fields of a `CMUTIL_XmlNode_Internal` besides its links. User data and the callbacks
that free it have names; `none` is `NULL`. -/
structure XmlNodeFields where
  type : XmlNodeKind
  tagname : List UInt8
  attributes : OrderedMap CString (List UInt8)
  udata : Option ℕ
  freef : Option ℕ

/-- `CMUTIL_XmlNodeCreateWithLenInternal`, without the links. -/
def XmlNodeFields.createWithLen (type : XmlNodeKind) (tagname : List UInt8) : XmlNodeFields where
  type := type
  tagname := tagname
  attributes := OrderedMap.empty
  udata := none
  freef := none

/-- `CMUTIL_XmlSetName`. -/
def xmlSetName (name : CString) (node : XmlNodeFields) : XmlNodeFields :=
  { node with tagname := name.1 }

/-- `CMUTIL_XmlSetAttribute`. -/
def xmlSetAttribute (key value : CString) (node : XmlNodeFields) : XmlNodeFields :=
  { node with attributes := node.attributes.put key value.1 }

/-- `CMUTIL_XmlSetUserData`. The data that was set before is not freed. -/
def xmlSetUserData (udata freef : Option ℕ) (node : XmlNodeFields) : XmlNodeFields :=
  { node with udata := udata, freef := freef }

/-- The call of `freef` in `CMUTIL_XmlDestroy`. -/
def xmlFreeUserData (node : XmlNodeFields) : List (ℕ × ℕ) :=
  match node.udata, node.freef with
  | some udata, some freef => [(freef, udata)]
  | _, _ => []

/-- The nodes by their addresses, and what was freed so far: the nodes, and the calls of the
callbacks with their data. -/
@[ext]
structure XmlHeap where
  nodes : ℕ → Option (Cell ℕ XmlNodeFields)
  created : ℕ
  freed : List ℕ
  freedData : List (ℕ × ℕ)
  crashed : Bool

namespace XmlHeap

/-- No node yet. -/
def empty : XmlHeap := ⟨fun _ => none, 0, [], [], false⟩

variable (s : XmlHeap)

/-- A node that is not live was touched. -/
def crash : XmlHeap := { s with crashed := true }

/-- The new node at an address. -/
def create (node : ℕ) (fields : XmlNodeFields) : XmlHeap :=
  { s with
    nodes := Function.update s.nodes node (some ⟨fields, [], none⟩)
    created := s.created + 1 }

/-- The fields of a node change. -/
def modify (node : ℕ) (f : XmlNodeFields → XmlNodeFields) : XmlHeap :=
  match s.nodes node with
  | none => s.crash
  | some cell =>
      { s with nodes := Function.update s.nodes node (some { cell with data := f cell.data }) }

/-- `CMUTIL_XmlAddChild`. The child may be anywhere. -/
def addChild (node child : ℕ) : XmlHeap :=
  match s.nodes node with
  | none => s.crash
  | some inode =>
      let nodes := Function.update s.nodes node
        (some { inode with children := inode.children ++ [child] })
      match nodes child with
      | none => s.crash
      | some ichild =>
          { s with nodes := Function.update nodes child (some { ichild with parent := some node }) }

/-- The node alone is freed. -/
def release (node : ℕ) (fields : XmlNodeFields) : XmlHeap :=
  { s with
    nodes := Function.update s.nodes node none
    freed := s.freed ++ [node]
    freedData := s.freedData ++ xmlFreeUserData fields }

end XmlHeap

/-- `CMUTIL_XmlDestroy`, with `CMUTIL_ArrayDestroy` for the children; `none` when it comes to a
node that is not live. -/
def xmlDestroy : ℕ → XmlHeap → ℕ → Option XmlHeap
  | 0, _, _ => none
  | fuel + 1, s, node =>
      match s.nodes node with
      | none => none
      | some inode =>
          inode.children.foldlM (fun s child => xmlDestroy fuel s child)
            (s.release node inode.data)

/-- `CMUTIL_XmlToDocumentPrivate` on the nodes in memory; `none` when it comes to a node that is
not live. -/
def xmlHeapToDocumentPrivate (nodes : ℕ → Option (Cell ℕ XmlNodeFields)) (beutify : Bool) :
    ℕ → ℕ → ℕ → Option (List UInt8)
  | 0, _, _ => none
  | fuel + 1, node, depth =>
      match nodes node with
      | none => none
      | some inode =>
          let name := inode.data.tagname
          let start := xmlIndent depth ++ 0x3C :: (name ++ xmlBuildAttribute inode.data.attributes)
          match inode.data.type with
          | .unknown => some []
          | .text => some (xmlIndent depth ++ xmlEscape name)
          | .tag =>
              if inode.children = [] then some (start ++ [0x2F, 0x3E])
              else
                (inode.children.mapM fun child =>
                  xmlHeapToDocumentPrivate nodes beutify fuel child (depth + 1)).map fun texts =>
                    start ++ 0x3E :: xmlLineEnd ++ texts.flatMap (· ++ xmlLineEnd) ++
                      List.replicate depth 0x09 ++ [0x3C, 0x2F] ++ name ++ [0x3E]

/-- `CMUTIL_XmlToDocument` on the nodes in memory. -/
def xmlHeapToDocument (s : XmlHeap) (node : ℕ) (beutify : Bool) : Option (List UInt8) :=
  (xmlHeapToDocumentPrivate s.nodes beutify (s.created + 1) node 0).map fun text =>
    xmlHeaderText ++ xmlLineEnd ++ text

mutual

/-- The tree that is printed, when all its nodes are of a known kind. -/
def xmlNodeOf : IdTree ℕ XmlNodeFields → Option XmlNode
  | .node _ inode children =>
      match inode.type with
      | .unknown => none
      | .text => some (.text inode.tagname)
      | .tag => (xmlNodesOf children).map (.tag inode.tagname inode.attributes)

/-- The children that are printed. -/
def xmlNodesOf : List (IdTree ℕ XmlNodeFields) → Option (List XmlNode)
  | [] => some []
  | t :: ts => (xmlNodeOf t).bind fun child => (xmlNodesOf ts).map (child :: ·)

end

mutual

/-- The user data in a tree, parents first. -/
def xmlUserData : IdTree ℕ XmlNodeFields → List (ℕ × ℕ)
  | .node _ inode children => xmlFreeUserData inode ++ xmlUserDataOf children

/-- The user data in some trees. -/
def xmlUserDataOf : List (IdTree ℕ XmlNodeFields) → List (ℕ × ℕ)
  | [] => []
  | t :: ts => xmlUserData t ++ xmlUserDataOf ts

end

/-! ### What a call does to a tree -/

namespace XmlHeap

/-- Some nodes were freed, with their data. -/
def without (s : XmlHeap) (ids : List ℕ) (data : List (ℕ × ℕ)) : XmlHeap :=
  { s with
    nodes := fun n => if n ∈ ids then none else s.nodes n
    freed := s.freed ++ ids
    freedData := s.freedData ++ data }

variable {s : XmlHeap}

lemma without_nil : s.without [] [] = s := by
  simp [without]

lemma without_without (ids ids' : List ℕ) (data data' : List (ℕ × ℕ)) :
    (s.without ids data).without ids' data' = s.without (ids ++ ids') (data ++ data') := by
  ext1
  · funext n
    by_cases hn : n ∈ ids <;> by_cases hn' : n ∈ ids' <;> simp [without, hn, hn']
  · rfl
  · simp [without]
  · simp [without]
  · rfl

lemma release_eq (node : ℕ) (inode : XmlNodeFields) :
    s.release node inode = s.without [node] (xmlFreeUserData inode) := by
  ext1
  · funext n
    by_cases hn : n = node
    · simp [release, without, hn]
    · simp [release, without, hn]
  all_goals rfl

lemma nodes_without {ids : List ℕ} {data : List (ℕ × ℕ)} {n : ℕ} (hn : n ∉ ids) :
    (s.without ids data).nodes n = s.nodes n := if_neg hn

end XmlHeap

mutual

/-- `Destroy` frees the nodes of a tree, each one once. -/
lemma xmlDestroy_tree {parent : Option ℕ} (s : XmlHeap) (t : IdTree ℕ XmlNodeFields)
    (h : TreeIn s.nodes parent t) (hnodup : t.ids.Nodup) {fuel : ℕ} (hfuel : t.depth ≤ fuel) :
    xmlDestroy fuel s t.id = some (s.without t.ids (xmlUserData t)) := by
  match t, fuel with
  | .node id inode children, 0 => simp [IdTree.depth] at hfuel
  | .node id inode children, fuel + 1 =>
      rw [IdTree.ids] at hnodup
      rw [TreeIn] at h
      rw [IdTree.depth] at hfuel
      have hid : id ∉ idsOf children := (List.nodup_cons.mp hnodup).1
      rw [IdTree.id, xmlDestroy, h.1]
      refine (xmlDestroy_trees (some id) (s.release id inode) children ?_
        (List.nodup_cons.mp hnodup).2 (Nat.le_of_succ_le_succ hfuel)).trans ?_
      · refine IdTree.TreesIn.congr children h.2 fun n hn => ?_
        rw [XmlHeap.release_eq, XmlHeap.nodes_without]
        rw [List.mem_singleton]
        rintro rfl
        exact hid hn
      · rw [XmlHeap.release_eq, XmlHeap.without_without, IdTree.ids, xmlUserData]
        rfl

lemma xmlDestroy_trees (parent : Option ℕ) (s : XmlHeap) (ts : List (IdTree ℕ XmlNodeFields))
    (h : TreesIn s.nodes parent ts) (hnodup : (idsOf ts).Nodup) {fuel : ℕ}
    (hfuel : depthOf ts ≤ fuel) :
    (ts.map IdTree.id).foldlM (fun s child => xmlDestroy fuel s child) s =
      some (s.without (idsOf ts) (xmlUserDataOf ts)) := by
  match ts with
  | [] =>
      rw [idsOf, xmlUserDataOf, XmlHeap.without_nil]
      rfl
  | t :: ts =>
      rw [TreesIn] at h
      rw [idsOf] at hnodup
      rw [depthOf] at hfuel
      obtain ⟨hhead, htail, hdisjoint⟩ := List.nodup_append'.mp hnodup
      rw [List.map_cons, List.foldlM_cons,
        xmlDestroy_tree s t h.1 hhead (Nat.le_trans (Nat.le_max_left _ _) hfuel),
        Option.bind_eq_bind, Option.bind_some]
      refine (xmlDestroy_trees parent _ ts ?_ htail
        (Nat.le_trans (Nat.le_max_right _ _) hfuel)).trans ?_
      · exact IdTree.TreesIn.congr ts h.2 fun n hn =>
          XmlHeap.nodes_without fun hn' => hdisjoint hn' hn
      · rw [XmlHeap.without_without, idsOf, xmlUserDataOf]

end

mutual

/-- The printer prints the tree below a node. -/
lemma xmlHeapToDocumentPrivate_tree {nodes : ℕ → Option (Cell ℕ XmlNodeFields)}
    {parent : Option ℕ} (beutify : Bool) (t : IdTree ℕ XmlNodeFields) (root : XmlNode)
    (h : TreeIn nodes parent t) (ht : xmlNodeOf t = some root) {fuel : ℕ} (hfuel : t.depth ≤ fuel)
    (depth : ℕ) :
    xmlHeapToDocumentPrivate nodes beutify fuel t.id depth =
      some (xmlToDocumentPrivate beutify root depth) := by
  match t, fuel with
  | .node id inode children, 0 => simp [IdTree.depth] at hfuel
  | .node id inode children, fuel + 1 =>
      rw [TreeIn] at h
      rw [IdTree.depth] at hfuel
      rw [IdTree.id, xmlHeapToDocumentPrivate, h.1]
      rw [xmlNodeOf] at ht
      cases htype : inode.type with
      | unknown =>
          rw [htype] at ht
          cases ht
      | text =>
          rw [htype] at ht
          obtain rfl := Option.some.inj ht
          simp only [htype, xmlToDocumentPrivate]
      | tag =>
          rw [htype] at ht
          simp only [htype]
          obtain ⟨texts, htexts, rfl⟩ := Option.map_eq_some_iff.mp ht
          match children, texts with
          | [], [] => simp [xmlToDocumentPrivate]
          | [], text :: texts => cases htexts
          | child :: children, [] =>
              rw [xmlNodesOf] at htexts
              obtain ⟨root, -, hcons⟩ := Option.bind_eq_some_iff.mp htexts
              obtain ⟨roots, -, hnil⟩ := Option.map_eq_some_iff.mp hcons
              cases hnil
          | child :: children, text :: texts =>
              have hchildren := xmlHeapToDocumentPrivate_trees beutify (child :: children)
                (text :: texts) h.2 htexts (Nat.le_of_succ_le_succ hfuel) (depth + 1)
              obtain ⟨printed, hprinted, hflat⟩ := hchildren
              have hne : (child :: children).map IdTree.id ≠ [] := List.cons_ne_nil _ _
              rw [if_neg hne, hprinted, Option.map_some, hflat, xmlToDocumentPrivate]
              simp

lemma xmlHeapToDocumentPrivate_trees {nodes : ℕ → Option (Cell ℕ XmlNodeFields)}
    {parent : Option ℕ} (beutify : Bool) (ts : List (IdTree ℕ XmlNodeFields))
    (roots : List XmlNode) (h : TreesIn nodes parent ts) (hts : xmlNodesOf ts = some roots)
    {fuel : ℕ} (hfuel : depthOf ts ≤ fuel) (depth : ℕ) :
    ∃ texts, ((ts.map IdTree.id).mapM fun child =>
        xmlHeapToDocumentPrivate nodes beutify fuel child depth) = some texts ∧
      texts.flatMap (· ++ xmlLineEnd) = xmlChildrenToDocument beutify roots depth := by
  match ts with
  | [] =>
      obtain rfl := Option.some.inj hts
      exact ⟨[], rfl, by rw [xmlChildrenToDocument]; rfl⟩
  | t :: ts =>
      rw [TreesIn] at h
      rw [depthOf] at hfuel
      rw [xmlNodesOf] at hts
      obtain ⟨root, hroot, hts⟩ := Option.bind_eq_some_iff.mp hts
      obtain ⟨roots', hroots, rfl⟩ := Option.map_eq_some_iff.mp hts
      have hhead := xmlHeapToDocumentPrivate_tree beutify t root h.1 hroot
        (Nat.le_trans (Nat.le_max_left _ _) hfuel) depth
      obtain ⟨texts, htexts, hflat⟩ := xmlHeapToDocumentPrivate_trees beutify ts roots' h.2 hroots
        (Nat.le_trans (Nat.le_max_right _ _) hfuel) depth
      refine ⟨xmlToDocumentPrivate beutify root depth :: texts, ?_, ?_⟩
      · rw [List.map_cons, List.mapM_cons, hhead, htexts]
        rfl
      · rw [List.flatMap_cons, hflat, xmlChildrenToDocument]

end

end LibCmutils
